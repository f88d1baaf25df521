import NtripCaster.Account.AuthCache
import NtripCaster.Api.Failure

/-!
# Sessions of the admin API

`internal/api/middleware.go` and the handlers that make and end sessions. A session is a token with
a user name and a time at which it expires; the middleware looks at nothing else. So a session
outlives the account: a token goes on being let through after its user was disabled, has lost the
role, or was deleted.

## Main definitions

* `SessionManager`, `SessionManager.authMiddleware`, `AcctSvc.login`
* `adminSystem`: logins and protected requests, one at a time
* `AdminState.Entitled`: who may be let through
* `KeepsAdmins`: the condition on a step

## Main results

* `Write.run_isAdmin`: what a write does to an admin
* `AdminState.Sound.entitled_iff`: the condition is exact
* `admin_access_ends`: only admins are let through, under the condition
* `admin_access_not_ended`: an admin who was disabled by another is let through
-/

namespace NtripCaster

open Tables Transition

/-! ## Sessions -/

/-- `sessionEntry`; times are nanoseconds. -/
structure SessionEntry where
  username : Bytes
  expiresAt : ℤ
  deriving DecidableEq, Repr

/-- `sessionTTL`: 24 hours. -/
def sessionTTL : ℤ := 24 * 60 * 60 * 1000000000

/-- The errors of the middleware and of `Login`. -/
inductive SessionError
  | unauthorized
  | sessionExpired
  | invalidRequestBody
  | internalError
  | invalidCredentials
  deriving DecidableEq, Repr

namespace SessionError

/-- The HTTP status of the answer. -/
def status : SessionError → ℕ
  | unauthorized | sessionExpired | invalidCredentials => 401
  | invalidRequestBody => 400
  | internalError => 500

/-- The text of the answer. -/
def text : SessionError → String
  | unauthorized => "unauthorized"
  | sessionExpired => "session expired"
  | invalidRequestBody => "invalid request body"
  | internalError => "internal error"
  | invalidCredentials => "invalid credentials"

end SessionError

/-- `hex.EncodeToString`. -/
def hexEncodeToString (b : Bytes) : Bytes :=
  b.flatMap fun x =>
    [x / 16, x % 16].map fun digit => (ascii "0123456789abcdef").getD digit.toNat 0

/-- `SessionManager`. -/
structure SessionManager where
  sessions : GoMap Bytes SessionEntry

namespace SessionManager

variable (sm : SessionManager) (now : ℤ)

/-- `NewSessionManager`. -/
def new : SessionManager := ⟨∅⟩

/-- `Create`, with the bytes that `rand.Read` gives, or `none` for its error. -/
def create (rand : Option Bytes) (username : Bytes) : Option (SessionManager × Bytes) :=
  rand.map fun b =>
    (⟨sm.sessions.insert (hexEncodeToString b) ⟨username, now + sessionTTL⟩⟩, hexEncodeToString b)

/-- `Validate`: a session that has expired is removed. -/
def validate (token : Bytes) : SessionManager × Option Bytes :=
  match sm.sessions.lookup token with
  | none => (sm, none)
  | some entry =>
    if entry.expiresAt < now then (⟨sm.sessions.erase token⟩, none)
    else (sm, some entry.username)

/-- `Destroy`. -/
def destroy (token : Bytes) : SessionManager := ⟨sm.sessions.erase token⟩

/-- `AuthMiddleware`, before the next handler; the cookie is `none` for `ErrNoCookie`. -/
def authMiddleware (cookie : Option Bytes) : SessionManager × Except SessionError Unit :=
  match cookie with
  | none => (sm, .error .unauthorized)
  | some token =>
    match sm.validate now token with
    | (sm, none) => (sm, .error .sessionExpired)
    | (sm, some _) => (sm, .ok ())

variable {sm now}

/-- Validation only removes sessions. -/
theorem lookup_authMiddleware {cookie : Option Bytes} {token : Bytes} {entry : SessionEntry}
    (h : (sm.authMiddleware now cookie).1.sessions.lookup token = some entry) :
    sm.sessions.lookup token = some entry := by
  cases cookie with
  | none => exact h
  | some token' =>
    simp only [authMiddleware, validate] at h
    cases hentry : sm.sessions.lookup token' with
    | none =>
      rw [hentry] at h
      exact h
    | some entry' =>
      rw [hentry] at h
      by_cases hlt : entry'.expiresAt < now
      · simp only [if_pos hlt] at h
        exact (GoMap.lookup_erase_eq_some.mp h).2
      · simpa only [if_neg hlt] using h

/-- A request is let through for a session that has not expired. -/
theorem authMiddleware_eq_ok {cookie : Option Bytes} :
    (sm.authMiddleware now cookie).2 = .ok () ↔
      ∃ token entry, cookie = some token ∧ sm.sessions.lookup token = some entry ∧
        now ≤ entry.expiresAt := by
  cases cookie with
  | none => simp [authMiddleware]
  | some token =>
    simp only [authMiddleware, validate]
    cases hentry : sm.sessions.lookup token with
    | none => simp [hentry]
    | some entry =>
      by_cases hlt : entry.expiresAt < now
      · simp [hlt, hentry]
      · have hle := Int.not_lt.mp hlt
        simp [hlt, hentry, hle]

/-- A request that is let through leaves the sessions as they are. -/
theorem authMiddleware_of_ok {cookie : Option Bytes}
    (h : (sm.authMiddleware now cookie).2 = .ok ()) : (sm.authMiddleware now cookie).1 = sm := by
  obtain ⟨token, entry, rfl, hentry, hgood⟩ := authMiddleware_eq_ok.mp h
  simp only [authMiddleware, validate, hentry, if_neg (Int.not_lt.mpr hgood)]

end SessionManager

/-! ## Login -/

/-- The body of `POST /api/login`. -/
structure LoginRequest where
  username : Bytes
  password : Bytes
  deriving DecidableEq, Repr

/-- `Login`: the service and the sessions after it, and the token and the user of its answer. The
clock is `now` at the lookup in the authentication cache, `now'` at the store, and `now''` when the
session is created. -/
def AcctSvc.login (bc : Bcrypt) (fails : Query → Bool) (now now' now'' : ℤ) (rand : Option Bytes)
    (svc : AcctSvc) (sm : SessionManager) (body : Option LoginRequest) :
    AcctSvc × SessionManager × Except SessionError (Bytes × User) :=
  match body with
  | none => (svc, sm, .error .invalidRequestBody)
  | some req =>
    match svc.toService.authenticate bc fails now now' req.username req.password with
    | (s, .error _) => (svc.withUsers s, sm, .error .internalError)
    | (s, .ok none) => (svc.withUsers s, sm, .error .invalidCredentials)
    | (s, .ok (some user)) =>
      if user.role ≠ roleAdmin then (svc.withUsers s, sm, .error .invalidCredentials)
      else
        match sm.create now'' rand user.username with
        | none => (svc.withUsers s, sm, .error .internalError)
        | some (sm, token) => (svc.withUsers s, sm, .ok (token, user))

/-! ## Admins -/

namespace UserTable

/-- The account of the user is there, enabled, and that of an admin. -/
def IsAdmin (t : UserTable) (u : User) : Prop :=
  ∃ row, t.byName u.username = some row ∧ row.id = u.id ∧ row.scan.enabled = true ∧
    row.role = roleAdmin

variable {t t' : UserTable} {u : User} {id : ℤ}

/-- An `UPDATE` that leaves the user an admin. -/
theorem IsAdmin.modify (h : t.IsAdmin u) {f : UserRow → UserRow}
    (hf : ∀ r, (f r).id = r.id ∧ (f r).username = r.username)
    (hkeep : ∀ r, r.id = id → r.id = u.id → r.scan.enabled = true → r.role = roleAdmin →
      (f r).scan.enabled = true ∧ (f r).role = roleAdmin) :
    IsAdmin (t.modify id f hf) u := by
  obtain ⟨row, hrow, hid, henabled, hrole⟩ := h
  refine ⟨if row.id = id then f row else row,
    (Table.byKey_modify hf _).trans (congrArg (Option.map _) hrow), ?_⟩
  split_ifs with hmod
  · exact ⟨(hf row).1.trans hid, hkeep row hmod hid henabled hrole⟩
  · exact ⟨hid, henabled, hrole⟩

theorem IsAdmin.delete (h : t.IsAdmin u) (hne : id ≠ u.id) : IsAdmin (t.delete id) u := by
  obtain ⟨row, hrow, hid, hadmin⟩ := h
  obtain ⟨hmem, hname⟩ := byName_eq_some.mp hrow
  have hkept : row ∈ (t.delete id).rows := List.mem_filter.mpr ⟨hmem, by simp [hid, hne.symm]⟩
  exact ⟨row, byName_eq_some.mpr ⟨hkept, hname⟩, hid, hadmin⟩

/-- No account of that id is an enabled admin's. -/
def Revoked (t : UserTable) (id : ℤ) : Prop :=
  ∀ row ∈ t.rows, row.id = id → ¬ (row.scan.enabled = true ∧ row.role = roleAdmin)

theorem Revoked.not_isAdmin (h : t.Revoked u.id) : ¬ t.IsAdmin u := by
  rintro ⟨row, hrow, hid, hadmin⟩
  exact h row (byName_eq_some.mp hrow).1 hid hadmin

/-- An `UPDATE` of the row, or one that changes neither the role nor `enabled` of any row. -/
theorem revoked_modify {f : UserRow → UserRow}
    (hf : ∀ r, (f r).id = r.id ∧ (f r).username = r.username) {id' : ℤ}
    (hrev : ∀ r ∈ t.rows, r.id = id → r.id = id' →
      ¬ ((f r).scan.enabled = true ∧ (f r).role = roleAdmin))
    (hother : id' ≠ id → t.Revoked id') : Revoked (t.modify id f hf) id' := by
  intro row hrow hid
  obtain ⟨r, hr, rfl⟩ := List.mem_map.mp hrow
  split_ifs at hid ⊢ with hmod
  · exact hrev r hr hmod ((hf r).1.symm.trans hid)
  · exact hother (fun h => hmod (hid.trans h)) r hr hid

theorem revoked_delete (t : UserTable) (id : ℤ) : Revoked (t.delete id) id := by
  intro row hrow hid
  exact absurd hid (Table.mem_delete.mp hrow).2

theorem IsAdmin.createUserRequest {bc : Bcrypt} {s : Service} (h : s.users.IsAdmin u)
    (salt username password role : Bytes) :
    (s.createUserRequest bc salt username password role).users.IsAdmin u := by
  obtain ⟨row, hrow, hadmin⟩ := h
  unfold Service.createUserRequest Service.createUser
  split_ifs
  · exact ⟨row, hrow, hadmin⟩
  · split
    · exact ⟨row, hrow, hadmin⟩
    · split
      · exact ⟨row, hrow, hadmin⟩
      next hins => exact ⟨row, byName_insert hins hrow, hadmin⟩

end UserTable

/-- A user whom `Authenticate` accepts is an admin if that is the role. -/
theorem Service.HasEnabledUser.isAdmin {s : Service} {u : User} (h : s.HasEnabledUser u)
    (hrole : u.role = roleAdmin) : s.users.IsAdmin u := by
  obtain ⟨henabled, row, hrow, rfl⟩ := h
  exact ⟨row, UserTable.byName_eq_some.mpr ⟨hrow, rfl⟩, rfl, henabled, hrole⟩

/-- A login accepts an admin and adds a session, or is refused; accounts stay as they are. -/
theorem AcctSvc.login_cases {bc : Bcrypt} {fails : Query → Bool} {now now' now'' : ℤ}
    {rand : Option Bytes} {svc svc' : AcctSvc} {sm sm' : SessionManager}
    {body : Option LoginRequest} {res : Except SessionError (Bytes × User)}
    (hcache : svc.toService.CacheCurrent bc)
    (h : svc.login bc fails now now' now'' rand sm body = (svc', sm', res)) :
    (svc'.users = svc.users ∧ svc'.toService.CacheCurrent bc) ∧
      ((∃ e, res = .error e ∧ sm' = sm) ∨ ∃ token user, res = .ok (token, user) ∧
        sm'.sessions = sm.sessions.insert token ⟨user.username, now'' + sessionTTL⟩ ∧
        svc.users.IsAdmin user) := by
  cases body with
  | none =>
    obtain ⟨rfl, hsm⟩ := Prod.mk.inj h
    obtain ⟨rfl, rfl⟩ := Prod.mk.inj hsm
    exact ⟨⟨rfl, hcache⟩, .inl ⟨_, rfl, rfl⟩⟩
  | some req =>
    have husers := svc.toService.users_authenticate bc fails now now' req.username
      req.password
    have hcur := hcache.authenticate fails now now' req.username req.password
    cases hauth : svc.toService.authenticate bc fails now now' req.username req.password with
    | mk service answer =>
      rw [hauth] at husers hcur
      have hkept : (svc.withUsers service).users = svc.users ∧
          (svc.withUsers service).toService.CacheCurrent bc := ⟨husers, hcur.congr rfl rfl⟩
      have hrefused (e : SessionError)
          (h : (svc.withUsers service, sm, .error e) = (svc', sm', res)) :
          (svc'.users = svc.users ∧ svc'.toService.CacheCurrent bc) ∧
            ∃ e, res = .error e ∧ sm' = sm := by
        obtain ⟨rfl, hsm⟩ := Prod.mk.inj h
        obtain ⟨rfl, rfl⟩ := Prod.mk.inj hsm
        exact ⟨hkept, _, rfl, rfl⟩
      simp only [login, hauth] at h
      cases answer with
      | error e => exact (hrefused _ h).imp_right .inl
      | ok accepted =>
        cases accepted with
        | none => exact (hrefused _ h).imp_right .inl
        | some user =>
          have huser := hcache.hasEnabledUser (congrArg Prod.snd hauth)
          dsimp only at h
          split at h
          next => exact (hrefused _ h).imp_right .inl
          next hrole =>
            cases rand with
            | none => exact (hrefused _ h).imp_right .inl
            | some b =>
              obtain ⟨rfl, hsm⟩ := Prod.mk.inj h
              obtain ⟨rfl, rfl⟩ := Prod.mk.inj hsm
              exact ⟨hkept, .inr ⟨_, user, rfl, rfl, huser.isAdmin (not_not.mp hrole)⟩⟩

namespace Write

variable {bc : Bcrypt} {cfg : MountpointDefaultsConfig} {env : AdminEnv} {h h' : Handlers}
  {w : Write}

/-- The write, if it is made, leaves user `id` an admin. -/
def KeepsAdmin (env : AdminEnv) (id : ℤ) : Write → Prop
  | updateUser id' role enabled =>
    id' = id → env.fails .updateUser = false → role = roleAdmin ∧ enabled = true
  | deleteUser id' => id' = id → env.fails .deleteUser = true
  | _ => True

/-- The write changes accounts. -/
def isAccount : Write → Bool
  | updateUser .. | updatePassword .. | deleteUser _ => true
  | _ => false

/-- Accounts and cache are as before after any other write. -/
theorem run_accounts (hw : w.isAccount = false) (hrun : w.run bc cfg env h = .ok h') :
    h'.acctSvc.users = h.acctSvc.users ∧ h'.acctSvc.authCache = h.acctSvc.authCache := by
  cases hrow : w.isRow with
  | false => exact run_live hrow hrun ▸ ⟨rfl, rfl⟩
  | true =>
    cases w with
    | createMountPointRow name description format =>
      obtain ⟨svc, hsvc, rfl⟩ := of_map_ok hrun
      obtain ⟨⟨_, id⟩, hcreated, rfl⟩ := of_map_ok hsvc
      obtain ⟨_, -, rfl⟩ := AcctSvc.createMountPointRow_ok hcreated
      exact ⟨rfl, rfl⟩
    | setMountPointMaxClients id maxClients =>
      obtain ⟨svc, hsvc, rfl⟩ := of_map_ok hrun
      obtain rfl := AcctSvc.setMountPointMaxClients_ok hsvc
      exact ⟨rfl, rfl⟩
    | setMountPointSourceSecret id secret =>
      obtain ⟨svc, hsvc, rfl⟩ := of_map_ok hrun
      obtain ⟨_, rfl⟩ := AcctSvc.setMountPointSourceSecret_ok hsvc
      exact ⟨rfl, rfl⟩
    | updateMountPointRow id description format enabled =>
      obtain ⟨svc, hsvc, rfl⟩ := of_map_ok hrun
      obtain rfl := AcctSvc.updateMountPointRow_ok hsvc
      exact ⟨rfl, rfl⟩
    | deleteMountPointRow id =>
      obtain ⟨svc, hsvc, rfl⟩ := of_map_ok hrun
      obtain rfl := AcctSvc.deleteMountPointRow_ok hsvc
      exact ⟨rfl, rfl⟩
    | updateUser => cases hw
    | updatePassword => cases hw
    | deleteUser => cases hw
    | _ => cases hrow

/-- A user whom the write leaves an admin is one after it. -/
theorem run_isAdmin {u : User} (hadmin : h.acctSvc.users.IsAdmin u) (hw : w.KeepsAdmin env u.id)
    (hrun : w.run bc cfg env h = .ok h') : h'.acctSvc.users.IsAdmin u := by
  cases hacc : w.isAccount with
  | false =>
    rw [(run_accounts hacc hrun).1]
    exact hadmin
  | true =>
    cases w with
    | updateUser id role enabled =>
      obtain ⟨svc, hsvc, rfl⟩ := of_map_ok hrun
      obtain ⟨hfails, rfl⟩ := AcctSvc.updateUser_ok hsvc
      refine hadmin.modify
        (f := fun r => { r with role := role, enabled := if enabled then 1 else 0 })
        (fun _ => ⟨rfl, rfl⟩) fun r hid hu _ _ => ?_
      obtain ⟨rfl, rfl⟩ := hw (hid.symm.trans hu) hfails
      exact ⟨rfl, rfl⟩
    | updatePassword id password =>
      obtain ⟨svc, hsvc, rfl⟩ := of_map_ok hrun
      obtain ⟨hash, rfl⟩ := AcctSvc.updatePassword_ok hsvc
      exact hadmin.modify (f := fun r => { r with passwordHash := hash }) (fun _ => ⟨rfl, rfl⟩)
        fun r _ _ henabled hrole => ⟨henabled, hrole⟩
    | deleteUser id =>
      obtain ⟨svc, hsvc, rfl⟩ := of_map_ok hrun
      obtain ⟨hfails, rfl⟩ := AcctSvc.deleteUser_ok hsvc
      exact hadmin.delete fun hid => Bool.eq_false_iff.mp hfails (hw hid)
    | _ => cases hacc

/-- A password, like anything but a change of the role and of `enabled`, makes nobody an admin. -/
theorem run_revoked {id : ℤ} (hrev : h.acctSvc.users.Revoked id)
    (hw : (∃ id' password, w = updatePassword id' password) ∨ w.isAccount = false)
    (hrun : w.run bc cfg env h = .ok h') : h'.acctSvc.users.Revoked id := by
  rcases hw with ⟨id', password, rfl⟩ | hacc
  · obtain ⟨svc, hsvc, rfl⟩ := of_map_ok hrun
    obtain ⟨hash, rfl⟩ := AcctSvc.updatePassword_ok hsvc
    exact UserTable.revoked_modify (f := fun r => { r with passwordHash := hash })
      (fun _ => ⟨rfl, rfl⟩) (fun r hr _ hid => hrev r hr hid) fun _ => hrev
  · rw [(run_accounts hacc hrun).1]
    exact hrev

theorem eq_of_mem_when {p : Prop} [Decidable p] {w' : Write} (hw : w ∈ when p w') : w = w' := by
  unfold when at hw
  split at hw
  · exact List.mem_singleton.mp hw
  · cases hw

/-- A write leaves the cache current, or clears it. -/
theorem run_cacheCurrent (hcache : h.acctSvc.toService.CacheCurrent bc)
    (hrun : w.run bc cfg env h = .ok h') : h'.acctSvc.toService.CacheCurrent bc := by
  cases hacc : w.isAccount with
  | false =>
    obtain ⟨husers, hauth⟩ := run_accounts hacc hrun
    exact hcache.congr husers hauth
  | true =>
    cases w with
    | updateUser id role enabled =>
      obtain ⟨svc, hsvc, rfl⟩ := of_map_ok hrun
      obtain ⟨-, rfl⟩ := AcctSvc.updateUser_ok hsvc
      exact .of_empty rfl
    | updatePassword id password =>
      obtain ⟨svc, hsvc, rfl⟩ := of_map_ok hrun
      obtain ⟨hash, rfl⟩ := AcctSvc.updatePassword_ok hsvc
      exact .of_empty rfl
    | deleteUser id =>
      obtain ⟨svc, hsvc, rfl⟩ := of_map_ok hrun
      obtain ⟨-, rfl⟩ := AcctSvc.deleteUser_ok hsvc
      exact .of_empty rfl
    | _ => cases hacc

end Write

/-- The request disables, demotes or deletes user `id`, who is an enabled admin. -/
def AdminRequest.revokes (env : AdminEnv) (id : ℤ) : AdminRequest → Bool
  | updateUser (some id') (some req) =>
    id' == id && (req.role != [] && req.role != roleAdmin || req.enabled == some false) &&
      !env.fails .getUser && !env.fails .updateUser
  | deleteUser (some id') => id' == id && !env.fails .deleteUser
  | _ => false

namespace Handlers

variable {bc : Bcrypt} {cfg : MountpointDefaultsConfig} {env : AdminEnv} {h : Handlers}
  {req : AdminRequest} {u : User}

/-- What `UpdateUser` stores for an admin, unless it disables or demotes the user. -/
theorem updateUser_keepsAdmin (hadmin : h.acctSvc.users.IsAdmin u) {id : ℤ}
    {req : UpdateUserRequest}
    (hrev : (AdminRequest.updateUser (some id) (some req)).revokes env u.id = false) {user : User}
    (hget : h.acctSvc.getUser env.fails id = some user) :
    (Write.updateUser id (req.roleFor user) (req.enabledFor user)).KeepsAdmin env u.id := by
  rintro rfl hfails
  obtain ⟨hgetOk, hrow⟩ := Option.ite_none_left_eq_some.mp hget
  obtain ⟨row, hbyID, rfl⟩ := Option.map_eq_some_iff.mp hrow
  obtain ⟨row', hbyName, hid, henabled, hrole⟩ := hadmin
  obtain rfl : row = row' := by
    obtain ⟨hmem, hid'⟩ := Table.byID_eq_some.mp hbyID
    exact List.inj_on_of_nodup_map h.acctSvc.users.id_nodup hmem
      (UserTable.byName_eq_some.mp hbyName).1 (hid'.trans hid.symm)
  simp only [AdminRequest.revokes, beq_self_eq_true, Bool.true_and, hgetOk, hfails, Bool.not_false,
    Bool.and_true, Bool.or_eq_false_iff] at hrev
  obtain ⟨hrevRole, hrevEnabled⟩ := hrev
  constructor
  · rw [UpdateUserRequest.roleFor]
    split
    next hne => simpa [hne] using hrevRole
    next => exact hrole
  · rw [UpdateUserRequest.enabledFor]
    cases he : req.enabled with
    | none => exact henabled
    | some enabled => simpa [he] using hrevEnabled

/-- No request but one that disables, demotes or deletes an admin touches that. -/
theorem keepsAdmin_of_writes (hadmin : h.acctSvc.users.IsAdmin u)
    (hrev : req.revokes env u.id = false) {ws : List Write} (hws : h.writes env req = .ok ws) :
    ∀ w ∈ ws, w.KeepsAdmin env u.id := by
  cases req with
  | updateUser id body =>
    cases id <;> cases body <;> try cases hws
    next id req =>
      simp only [writes] at hws
      split at hws
      · cases hws
      next user hget =>
        obtain rfl := Except.ok.inj hws
        refine List.forall_mem_append.mpr ⟨List.forall_mem_cons.mpr
          ⟨updateUser_keepsAdmin hadmin hrev hget, ?_⟩, ?_⟩
        · unfold Write.when
          split <;> simp [Write.KeepsAdmin]
        · unfold Write.when
          split <;> simp [Write.KeepsAdmin]
  | deleteUser id =>
    cases id <;> try cases hws
    next id =>
      refine List.forall_mem_cons.mpr ⟨trivial, List.forall_mem_singleton.mpr fun hid => ?_⟩
      simpa [AdminRequest.revokes, hid] using hrev
  | createMountpoint body =>
    cases body <;> try cases hws
    next req =>
      simp only [writes] at hws
      split at hws
      · cases hws
      · obtain rfl := Except.ok.inj hws
        unfold Write.when
        split <;> split <;> simp [Write.KeepsAdmin]
  | updateMountpoint id body =>
    cases id <;> cases body <;> try cases hws
    next id req =>
      simp only [writes] at hws
      split at hws
      · cases hws
      · obtain rfl := Except.ok.inj hws
        unfold Write.given
        cases req.maxClients <;> cases req.sourceSecret <;> simp [Write.KeepsAdmin]
  | deleteMountpoint id =>
    cases id <;> try cases hws
    simp only [writes] at hws
    split at hws
    · cases hws
    · obtain rfl := Except.ok.inj hws
      simp [Write.KeepsAdmin]

/-- A user whom the request does not disable, demote or delete. -/
theorem answer_isAdmin (hadmin : h.acctSvc.users.IsAdmin u)
    (hrev : req.revokes env u.id = false) :
    (h.answer bc cfg env req).1.acctSvc.users.IsAdmin u := by
  refine answer_invariant (P := fun h => h.acctSvc.users.IsAdmin u) (fun ws hws w hw t t' ht hrun =>
    Write.run_isAdmin ht (keepsAdmin_of_writes hadmin hrev hws w hw) hrun) hadmin

/-- What `UpdateUser` stores for a user whom the request disables or demotes. -/
theorem updateUser_revokes {req : UpdateUserRequest}
    (hrev : (req.role != [] && req.role != roleAdmin || req.enabled == some false) = true)
    (user : User) : ¬ (req.enabledFor user = true ∧ req.roleFor user = roleAdmin) := by
  rintro ⟨henabled, hrole⟩
  rcases Bool.or_eq_true_iff.mp hrev with hrev | hrev
  · obtain ⟨hne, hother⟩ := Bool.and_eq_true_iff.mp hrev
    rw [UpdateUserRequest.roleFor, if_pos (bne_iff_ne.mp hne)] at hrole
    exact bne_iff_ne.mp hother hrole
  · rw [UpdateUserRequest.enabledFor, beq_iff_eq.mp hrev] at henabled
    cases henabled

/-- A user whom the request disables, demotes or deletes. -/
theorem answer_revokes (hadmin : h.acctSvc.users.IsAdmin u)
    (hrev : req.revokes env u.id = true) :
    ¬ (h.answer bc cfg env req).1.acctSvc.users.IsAdmin u := by
  refine UserTable.Revoked.not_isAdmin ?_
  rw [answer_eq]
  cases req with
  | updateUser id body =>
    cases id <;> cases body <;> try cases hrev
    next id req =>
      simp only [AdminRequest.revokes, Bool.and_eq_true, beq_iff_eq, Bool.not_eq_true'] at hrev
      obtain ⟨⟨⟨rfl, hrev⟩, hgetOk⟩, hupdateOk⟩ := hrev
      obtain ⟨row, hrow, hid, -⟩ := hadmin
      have hbyID : h.acctSvc.users.byID u.id = some row :=
        Table.byID_eq_some.mpr
          ⟨(UserTable.byName_eq_some.mp hrow).1, hid⟩
      have hget : h.acctSvc.getUser env.fails u.id = some row.scan := by
        rw [AcctSvc.getUser, hgetOk, hbyID]
        rfl
      have hrun : (Write.updateUser u.id (req.roleFor row.scan) (req.enabledFor row.scan)).run bc
          cfg env h = .ok { h with acctSvc := h.acctSvc.withUsers (h.acctSvc.toService.updateUser
            u.id (req.roleFor row.scan) (req.enabledFor row.scan)) } := by
        simp only [Write.run, AcctSvc.updateUser, hupdateOk]
        rfl
      simp only [writes, hget, chain, List.cons_append]
      rw [Chain.run_cons_ok hrun]
      refine Chain.run_invariant (P := fun h => h.acctSvc.users.Revoked u.id)
        (fun w hw t t' ht hrun => Write.run_revoked ht ?_ hrun) ?_
      · rcases List.mem_append.mp hw with hw | hw
        · exact .inl ⟨_, _, Write.eq_of_mem_when hw⟩
        · exact .inr (Write.eq_of_mem_when hw ▸ rfl)
      · refine UserTable.revoked_modify (f := fun r => { r with
            role := req.roleFor row.scan
            enabled := if req.enabledFor row.scan then 1 else 0 })
          (fun _ => ⟨rfl, rfl⟩) (fun r _ _ _ => ?_) fun hne => absurd rfl hne
        have hrevoked := updateUser_revokes hrev row.scan
        cases henabled : req.enabledFor row.scan with
        | false => exact fun h => absurd h.1 Bool.false_ne_true
        | true => exact fun h => hrevoked ⟨henabled, h.2⟩
  | deleteUser id =>
    cases id <;> try cases hrev
    next id =>
      simp only [AdminRequest.revokes, Bool.and_eq_true, beq_iff_eq, Bool.not_eq_true'] at hrev
      obtain ⟨rfl, hdeleteOk⟩ := hrev
      simp only [writes, chain]
      rw [Chain.run_cons_ok rfl, Chain.run, Write.run, AcctSvc.deleteUser, hdeleteOk]
      exact UserTable.revoked_delete _ _
  | createMountpoint body => cases hrev
  | updateMountpoint id body => cases hrev
  | deleteMountpoint id => cases hrev

theorem answer_cacheCurrent (hcache : h.acctSvc.toService.CacheCurrent bc) :
    (h.answer bc cfg env req).1.acctSvc.toService.CacheCurrent bc :=
  answer_invariant (P := fun h => h.acctSvc.toService.CacheCurrent bc)
    (fun _ _ _ _ _ _ ht hrun => Write.run_cacheCurrent ht hrun) hcache

end Handlers

/-! ## The admin API, one request at a time -/

/-- A login, with the user it was for and its time, or a logout, of a token. -/
inductive SessionEvent
  | login (token : Bytes) (user : User) (time : ℤ)
  | logout (token : Bytes)
  deriving DecidableEq, Repr

/-- The token of the session. -/
def SessionEvent.token : SessionEvent → Bytes
  | login token .. | logout token => token

/-- The body of `POST /api/users`. -/
structure CreateUserRequest where
  username : Bytes
  password : Bytes
  role : Bytes
  deriving DecidableEq, Repr

/-- A request behind the middleware. The handlers of `other` leave accounts and sessions alone. -/
inductive ProtectedRequest
  | logout
  | createUser (salt : Bytes) (body : Option CreateUserRequest)
  | admin (env : AdminEnv) (req : AdminRequest)
  | other (mgr : Manager) (conns : Connections)

/-- What the API works on, the time, and the logins and logouts so far, the last one first. -/
structure AdminState where
  h : Handlers
  sess : SessionManager
  clock : ℤ
  log : List SessionEvent

/-- A login, a protected request with the cookie it carries, or the authentication of a device. -/
inductive AdminStep
  | login (fails : Query → Bool) (now now' now'' : ℤ) (rand : Option Bytes)
    (body : Option LoginRequest)
  | request (now : ℤ) (cookie : Option Bytes) (req : ProtectedRequest)
  | authenticate (fails : Query → Bool) (now now' : ℤ) (username password : Bytes)

/-- `POST /api/users`. -/
def Handlers.createUser (bc : Bcrypt) (salt : Bytes) (h : Handlers)
    (body : Option CreateUserRequest) : Handlers :=
  match body with
  | none => h
  | some req =>
    { h with
      acctSvc := h.acctSvc.withUsers
        (h.acctSvc.toService.createUserRequest bc salt req.username req.password req.role) }

namespace AdminState

variable (bc : Bcrypt) (cfg : MountpointDefaultsConfig) (s : AdminState)

/-- `Logout`. -/
def logout (cookie : Option Bytes) : AdminState :=
  match cookie with
  | none => s
  | some token => { s with sess := s.sess.destroy token, log := .logout token :: s.log }

/-- The handler behind the middleware. -/
def serve (cookie : Option Bytes) : ProtectedRequest → AdminState
  | .logout => s.logout cookie
  | .createUser salt body => { s with h := s.h.createUser bc salt body }
  | .admin env req => { s with h := (s.h.answer bc cfg env req).1 }
  | .other mgr conns => { s with h := { s.h with mgr := mgr, conns := conns } }

/-- `Login`, with its entry in the log. -/
def login (fails : Query → Bool) (now now' now'' : ℤ) (rand : Option Bytes)
    (body : Option LoginRequest) : AdminState :=
  match s.h.acctSvc.login bc fails now now' now'' rand s.sess body with
  | (svc, sess, .ok (token, user)) =>
    ⟨{ s.h with acctSvc := svc }, sess, now'', .login token user now'' :: s.log⟩
  | (svc, sess, .error _) => ⟨{ s.h with acctSvc := svc }, sess, now'', s.log⟩

/-- A protected request. -/
def request (now : ℤ) (cookie : Option Bytes) (req : ProtectedRequest) : AdminState :=
  match s.sess.authMiddleware now cookie with
  | (sess, .error _) => { s with sess := sess, clock := now }
  | (sess, .ok _) => { s with sess := sess, clock := now }.serve bc cfg cookie req

/-- The authentication of a device. -/
def authenticate (fails : Query → Bool) (now now' : ℤ) (username password : Bytes) : AdminState :=
  { s with
    h := { s.h with
      acctSvc := s.h.acctSvc.withUsers
        (s.h.acctSvc.toService.authenticate bc fails now now' username password).1 }
    clock := now' }

/-- A step, unless it turns the clock back. -/
def step : AdminStep → Option AdminState
  | .login fails now now' now'' rand body =>
    if s.clock ≤ now ∧ now ≤ now' ∧ now' ≤ now'' then
      some (s.login bc fails now now' now'' rand body)
    else none
  | .request now cookie req =>
    if s.clock ≤ now then some (s.request bc cfg now cookie req) else none
  | .authenticate fails now now' username password =>
    if s.clock ≤ now ∧ now ≤ now' then some (s.authenticate bc fails now now' username password)
    else none

end AdminState

/-- Requests one at a time, on any database, with an empty cache and no sessions at the start. -/
def adminSystem (bc : Bcrypt) (cfg : MountpointDefaultsConfig) : System AdminState AdminStep where
  init s := ∃ users mountpoints mgr conns clock,
    s = ⟨⟨⟨users, mountpoints, ∅⟩, mgr, conns⟩, .new, clock, []⟩
  step s a := s.step bc cfg a

/-- A request that is let through revokes no account whose session is still good. -/
def KeepsAdmins (s : AdminState) : AdminStep → Prop
  | .request now cookie (.admin env req) =>
    (s.sess.authMiddleware now cookie).2 = .ok () →
      ∀ entry ∈ s.sess.sessions.values, now ≤ entry.expiresAt →
        ∀ row ∈ s.h.acctSvc.users.byName entry.username, req.revokes env row.id = false
  | _ => True

instance (s : AdminState) (a : AdminStep) : Decidable (KeepsAdmins s a) :=
  match a with
  | .request now cookie (.admin env req) =>
    inferInstanceAs (Decidable ((s.sess.authMiddleware now cookie).2 = .ok () →
      ∀ entry ∈ s.sess.sessions.values, now ≤ entry.expiresAt →
        ∀ row ∈ s.h.acctSvc.users.byName entry.username, req.revokes env row.id = false))
  | .request _ _ .logout | .request _ _ (.createUser ..) | .request _ _ (.other ..) | .login ..
  | .authenticate .. => .isTrue trivial

namespace AdminState

/-- The last that happened to the token is a login of the user at the time. -/
def LoggedIn (s : AdminState) (token : Bytes) (user : User) (time : ℤ) : Prop :=
  s.log.find? (fun e => e.token == token) = some (.login token user time)

/-- A request that is let through has a token that was given out by a login, not taken back since,
and not older than a session may get, and its user is an enabled admin. -/
def Entitled (s : AdminState) : Prop :=
  ∀ now cookie, s.clock ≤ now → (s.sess.authMiddleware now cookie).2 = .ok () →
    ∃ token user time, cookie = some token ∧ s.LoggedIn token user time ∧
      now ≤ time + sessionTTL ∧ s.h.acctSvc.users.IsAdmin user

/-! ## Sessions are those of admins -/

/-- The session goes back to a login, and as long as it is good its user is an enabled admin. -/
def Backed (s : AdminState) (token : Bytes) (entry : SessionEntry) : Prop :=
  ∃ user time, s.LoggedIn token user time ∧ entry = ⟨user.username, time + sessionTTL⟩ ∧
    (s.clock ≤ entry.expiresAt → s.h.acctSvc.users.IsAdmin user)

/-- The cache is current and every session goes back to a login. -/
structure Sound (bc : Bcrypt) (s : AdminState) : Prop where
  cache : s.h.acctSvc.toService.CacheCurrent bc
  backed : ∀ token entry, s.sess.sessions.lookup token = some entry → s.Backed token entry

variable {bc : Bcrypt} {cfg : MountpointDefaultsConfig} {s s' : AdminState}

theorem LoggedIn.cons {token : Bytes} {user : User} {time : ℤ} (h : s.LoggedIn token user time)
    {e : SessionEvent} (hne : e.token ≠ token) (hlog : s'.log = e :: s.log) :
    s'.LoggedIn token user time := by
  rw [LoggedIn, hlog, List.find?_cons_of_neg (by simpa using hne)]
  exact h

/-- A login is the last that has happened to its token. -/
theorem loggedIn_login {token : Bytes} {user : User} {time : ℤ}
    (hlog : s'.log = .login token user time :: s.log) : s'.LoggedIn token user time := by
  rw [LoggedIn, hlog]
  exact List.find?_cons_of_pos (beq_self_eq_true token)

/-- A session is backed as long as nothing happens to its token and its user stays an admin. -/
theorem Backed.mono {token : Bytes} {entry : SessionEntry} (h : s.Backed token entry)
    (hclock : s.clock ≤ s'.clock)
    (hlog : s'.log = s.log ∨ ∃ e, e.token ≠ token ∧ s'.log = e :: s.log)
    (hadmin : ∀ u, u.username = entry.username → s'.clock ≤ entry.expiresAt →
      s.h.acctSvc.users.IsAdmin u → s'.h.acctSvc.users.IsAdmin u) : s'.Backed token entry := by
  obtain ⟨user, time, hin, rfl, huser⟩ := h
  refine ⟨user, time, ?_, rfl, fun hgood =>
    hadmin user rfl hgood (huser (Int.le_trans hclock hgood))⟩
  rcases hlog with hlog | ⟨e, hne, hlog⟩
  · rw [LoggedIn, hlog]
    exact hin
  · exact hin.cons hne hlog

/-- The middleware only removes sessions. -/
theorem Sound.validated (h : s.Sound bc) {now : ℤ} (hnow : s.clock ≤ now) (cookie : Option Bytes) :
    Sound bc { s with sess := (s.sess.authMiddleware now cookie).1, clock := now } := by
  refine ⟨h.cache, fun token entry hentry => ?_⟩
  exact (h.backed token entry (SessionManager.lookup_authMiddleware hentry)).mono hnow (.inl rfl)
    fun _ _ _ huser => huser

theorem Sound.logout (h : s.Sound bc) (cookie : Option Bytes) : (s.logout cookie).Sound bc := by
  cases cookie with
  | none => exact h
  | some token =>
    refine ⟨h.cache, fun token' entry hentry => ?_⟩
    obtain ⟨hne, hentry⟩ := GoMap.lookup_erase_eq_some.mp hentry
    exact (h.backed token' entry hentry).mono (Int.le_refl _)
      (.inr ⟨.logout token, hne.symm, rfl⟩) fun _ _ _ huser => huser

/-- A change of the accounts that leaves those who have a good session admins. -/
theorem Sound.accounts (h : s.Sound bc) {t : Handlers}
    (hcache : t.acctSvc.toService.CacheCurrent bc)
    (hadmin : ∀ token entry, s.sess.sessions.lookup token = some entry →
      s.clock ≤ entry.expiresAt → ∀ u, u.username = entry.username →
      s.h.acctSvc.users.IsAdmin u → t.acctSvc.users.IsAdmin u) :
    Sound bc { s with h := t } := by
  refine ⟨hcache, fun token entry hentry => ?_⟩
  exact (h.backed token entry hentry).mono (Int.le_refl _) (.inl rfl)
    fun u hu hgood huser => hadmin token entry hentry hgood u hu huser

/-- The handlers behind the middleware. -/
theorem Sound.serve (h : s.Sound bc) (cookie : Option Bytes) {req : ProtectedRequest}
    (hkeep : ∀ env areq, req = .admin env areq → ∀ entry ∈ s.sess.sessions.values,
      s.clock ≤ entry.expiresAt → ∀ row ∈ s.h.acctSvc.users.byName entry.username,
        areq.revokes env row.id = false) : (s.serve bc cfg cookie req).Sound bc := by
  cases req with
  | logout => exact h.logout cookie
  | createUser salt body =>
    cases body with
    | none => exact h
    | some req =>
      refine h.accounts ?_ fun _ _ _ _ u _ huser => ?_
      · exact (h.cache.call (.createUser salt req.username req.password req.role)).congr rfl rfl
      · exact UserTable.IsAdmin.createUserRequest (s := s.h.acctSvc.toService) huser _ _ _ _
  | admin env areq =>
    refine h.accounts (Handlers.answer_cacheCurrent h.cache) ?_
    intro token entry hentry hgood u hu huser
    obtain ⟨row, hrow, hid, -⟩ := id huser
    refine Handlers.answer_isAdmin huser ?_
    rw [← hid]
    exact hkeep env areq rfl entry (GoMap.mem_values.mpr ⟨token, hentry⟩) hgood row (hu ▸ hrow)
  | other mgr conns => exact h.accounts h.cache fun _ _ _ _ _ _ huser => huser

theorem Sound.request (h : s.Sound bc) {now : ℤ} (hnow : s.clock ≤ now) {cookie : Option Bytes}
    {req : ProtectedRequest} (hkeep : KeepsAdmins s (.request now cookie req)) :
    (s.request bc cfg now cookie req).Sound bc := by
  have hvalid := h.validated hnow cookie
  unfold AdminState.request
  split
  next sess e heq =>
    rw [heq] at hvalid
    exact hvalid
  next sess heq =>
    rw [heq] at hvalid
    refine hvalid.serve cookie ?_
    rintro env areq rfl entry hentry hgood
    -- the sessions after the middleware are among those before it
    obtain ⟨token, htoken⟩ := GoMap.mem_values.mp hentry
    obtain ⟨rfl, hok⟩ := Prod.mk.inj heq
    have hbefore := SessionManager.lookup_authMiddleware htoken
    exact hkeep hok entry (GoMap.mem_values.mpr ⟨token, hbefore⟩) hgood

theorem Sound.login (h : s.Sound bc) {fails : Query → Bool} {now now' now'' : ℤ}
    (hnow : s.clock ≤ now'') {rand : Option Bytes} {body : Option LoginRequest} :
    (s.login bc fails now now' now'' rand body).Sound bc := by
  unfold AdminState.login
  split
  next svc sess token user heq =>
    obtain ⟨⟨husers, hcache⟩, ⟨e, he, -⟩ | ⟨token', user', hok, hsess, hadmin⟩⟩ :=
      AcctSvc.login_cases h.cache heq
    · cases he
    obtain ⟨rfl, rfl⟩ := Prod.mk.inj (Except.ok.inj hok)
    refine ⟨hcache, fun token' entry hentry => ?_⟩
    rw [hsess] at hentry
    rcases GoMap.lookup_insert_eq_some.mp hentry with ⟨rfl, rfl⟩ | ⟨hne, hentry⟩
    · exact ⟨user, now'', loggedIn_login (s := s) rfl, rfl, fun _ => husers ▸ hadmin⟩
    · exact (h.backed token' entry hentry).mono hnow (.inr ⟨.login token user now'', hne.symm, rfl⟩)
        fun _ _ _ huser => husers ▸ huser
  next svc sess e heq =>
    obtain ⟨⟨husers, hcache⟩, ⟨e, -, rfl⟩ | ⟨_, _, hok, -⟩⟩ := AcctSvc.login_cases h.cache heq
    · refine ⟨hcache, fun token entry hentry => ?_⟩
      exact (h.backed token entry hentry).mono hnow (.inl rfl) fun _ _ _ huser => husers ▸ huser
    · cases hok

theorem Sound.authenticate (h : s.Sound bc) {fails : Query → Bool} {now now' : ℤ}
    (hnow : s.clock ≤ now') {username password : Bytes} :
    (s.authenticate bc fails now now' username password).Sound bc := by
  have husers := s.h.acctSvc.toService.users_authenticate bc fails now now' username password
  refine ⟨(h.cache.authenticate fails now now' username password).congr rfl rfl,
    fun token entry hentry => ?_⟩
  exact (h.backed token entry hentry).mono hnow (.inl rfl) fun u _ _ huser =>
    (congrArg (UserTable.IsAdmin · u) husers).mpr huser

/-- Every step that meets the condition keeps the sessions backed. -/
theorem Sound.step (h : s.Sound bc) {a : AdminStep} (hkeep : KeepsAdmins s a)
    (hstep : s.step bc cfg a = some s') : s'.Sound bc := by
  cases a with
  | login fails now now' now'' rand body =>
    obtain ⟨⟨h₁, h₂, h₃⟩, hs⟩ := Option.ite_none_right_eq_some.mp hstep
    obtain rfl := Option.some.inj hs
    exact h.login (by omega)
  | request now cookie req =>
    obtain ⟨hnow, hs⟩ := Option.ite_none_right_eq_some.mp hstep
    obtain rfl := Option.some.inj hs
    exact h.request hnow hkeep
  | authenticate fails now now' username password =>
    obtain ⟨⟨h₁, h₂⟩, hs⟩ := Option.ite_none_right_eq_some.mp hstep
    obtain rfl := Option.some.inj hs
    exact h.authenticate (by omega)

theorem Sound.entitled (h : s.Sound bc) : s.Entitled := by
  intro now cookie hnow hok
  obtain ⟨token, entry, rfl, hentry, hgood⟩ := SessionManager.authMiddleware_eq_ok.mp hok
  obtain ⟨user, time, hin, rfl, hadmin⟩ := h.backed token entry hentry
  exact ⟨token, user, time, rfl, hin, hgood, hadmin (Int.le_trans hnow hgood)⟩

/-- A step that does not meet the condition lets somebody in who is not entitled. -/
theorem Sound.not_entitled (h : s.Sound bc) {a : AdminStep} (hrevokes : ¬ KeepsAdmins s a)
    (hstep : s.step bc cfg a = some s') : ¬ s'.Entitled := by
  intro hent
  apply hrevokes
  unfold KeepsAdmins
  split
  next now cookie env req =>
    intro hok entry hentry hgood row hrow
    by_contra hrev
    obtain ⟨hnow, hs⟩ := Option.ite_none_right_eq_some.mp hstep
    have hs' : { s with h := (s.h.answer bc cfg env req).1, clock := now } = s' := by
      have hsess := SessionManager.authMiddleware_of_ok hok
      rw [← Option.some.inj hs, AdminState.request]
      split
      next heq =>
        rw [heq] at hok
        cases hok
      next heq =>
        rw [heq] at hsess
        obtain rfl := hsess
        rfl
    subst hs'
    -- the session is still good, and its user is the one it was made for
    obtain ⟨token, hentry⟩ := GoMap.mem_values.mp hentry
    obtain ⟨user, time, hin, rfl, hadmin⟩ := h.backed token entry hentry
    obtain ⟨token', user', time', htoken, hin', -, hadmin'⟩ := hent now (some token) (Int.le_refl _)
      (SessionManager.authMiddleware_eq_ok.mpr ⟨token, _, rfl, hentry, hgood⟩)
    obtain rfl := Option.some.inj htoken
    obtain ⟨-, rfl, -⟩ := SessionEvent.login.inj (Option.some.inj (hin.symm.trans hin'))
    have hbefore := hadmin (Int.le_trans hnow hgood)
    obtain ⟨row', hrow', hid, -⟩ := id hbefore
    obtain rfl := Option.some.inj (hrow'.symm.trans hrow)
    refine Handlers.answer_revokes hbefore ?_ hadmin'
    rw [← hid]
    exact Bool.not_eq_false _ ▸ hrev
  next => trivial

/-- The condition on a step is exact: it is met where everybody let through is entitled. -/
theorem Sound.entitled_iff (h : s.Sound bc) {a : AdminStep} (hstep : s.step bc cfg a = some s') :
    s'.Entitled ↔ KeepsAdmins s a :=
  ⟨fun hent => not_not.mp fun hrevokes => h.not_entitled hrevokes hstep hent,
    fun hkeep => (h.step hkeep hstep).entitled⟩

end AdminState

/-- **Who is let through is entitled**, in the runs where no request revokes an account whose
session is still good. -/
theorem admin_access_ends {bc : Bcrypt} {cfg : MountpointDefaultsConfig} {s : AdminState}
    (h : ((adminSystem bc cfg).restrict KeepsAdmins).Reachable s) : s.Entitled := by
  have hsound : s.Sound bc := by
    refine System.Reachable.restrict_invariant (I := fun s => s.Sound bc) ?_
      (fun t a t' _ ht hkeep hstep => ht.step hkeep hstep) h
    rintro t ⟨users, mountpoints, mgr, conns, clock, rfl⟩
    refine ⟨.of_empty rfl, fun token entry hentry => ?_⟩
    simp [SessionManager.new] at hentry
  exact hsound.entitled

/-- Two admins `a` and `b` with the password `p`. -/
def twoAdmins : AdminState :=
  ⟨⟨⟨⟨[⟨1, ascii "a", ascii "p", roleAdmin, 1⟩, ⟨2, ascii "b", ascii "p", roleAdmin, 1⟩], 2,
    by decide, by decide, by decide⟩, .empty, ∅⟩, .new, ⟨[], []⟩⟩, .new, 0, []⟩

theorem twoAdmins_init : (adminSystem plainBcrypt {}).init twoAdmins :=
  ⟨_, _, _, _, _, rfl⟩

/-- Both log in, `b` with the token `00` and `a` with the token `01`. -/
def bothLogin : List AdminStep :=
  [.login noFault 0 0 0 (some [0]) (some ⟨ascii "b", ascii "p"⟩),
    .login noFault 0 0 0 (some [1]) (some ⟨ascii "a", ascii "p"⟩)]

/-- `a` disables `b`. -/
def disableB : AdminStep :=
  .request 1 (some (ascii "01"))
    (.admin faultless (.updateUser (some 2) (some { enabled := some false })))

/-- `b` logs out before being disabled. -/
theorem admin_access_ends_loggedOut :
    ∃ s, ((adminSystem plainBcrypt {}).restrict KeepsAdmins).run twoAdmins
        (bothLogin ++ [.request 0 (some (ascii "00")) .logout, disableB]) = some s ∧
      (s.sess.authMiddleware 2 (some (ascii "01"))).2 = .ok () ∧ s.Entitled := by
  obtain ⟨s, hs, hok⟩ : ∃ s, ((adminSystem plainBcrypt {}).restrict KeepsAdmins).run twoAdmins
        (bothLogin ++ [.request 0 (some (ascii "00")) .logout, disableB]) = some s ∧
      (s.sess.authMiddleware 2 (some (ascii "01"))).2 = .ok () := ⟨_, rfl, rfl⟩
  exact ⟨s, hs, hok, admin_access_ends (.of_run _ twoAdmins_init hs)⟩

/-- `b` is disabled and let through afterwards. -/
theorem admin_access_not_ended :
    ¬ ∀ (bc : Bcrypt) (cfg : MountpointDefaultsConfig) (s : AdminState),
      (adminSystem bc cfg).Reachable s → s.Entitled := by
  intro hall
  obtain ⟨s, hs, hclock, hok, hlog, hdisabled⟩ : ∃ s,
      (adminSystem plainBcrypt {}).run twoAdmins (bothLogin ++ [disableB]) = some s ∧
      s.clock = 1 ∧ (s.sess.authMiddleware 2 (some (ascii "00"))).2 = .ok () ∧
      s.log = [.login (ascii "01") ⟨1, ascii "a", ascii "p", roleAdmin, true⟩ 0,
        .login (ascii "00") ⟨2, ascii "b", ascii "p", roleAdmin, true⟩ 0] ∧
      (s.h.acctSvc.users.byName (ascii "b")).map UserRow.enabled = some 0 :=
    ⟨_, rfl, rfl, rfl, rfl, rfl⟩
  obtain ⟨_, user, time, htoken, hin, -, row, hrow, -, henabled, -⟩ :=
    hall _ _ s (.of_run _ twoAdmins_init hs) 2 (some (ascii "00")) (by omega) hok
  obtain rfl := Option.some.inj htoken
  rw [AdminState.LoggedIn, hlog] at hin
  obtain ⟨-, rfl, -⟩ := SessionEvent.login.inj (Option.some.inj hin)
  rw [hrow] at hdisabled
  rw [UserRow.scan, Option.some.inj hdisabled] at henabled
  cases henabled

end NtripCaster
