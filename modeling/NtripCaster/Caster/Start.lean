import NtripCaster.Account.Bindings
import NtripCaster.Api.Restart
import NtripCaster.Api.Sessions
import NtripCaster.Caster.Connection

/-!
# The start of the caster

`main` of `cmd/caster/main.go` from the open database on, and `EnsureAdmin` of
`internal/account/service.go`: a process starts with an account of the role `admin` in its table, or
not at all. The account may be a disabled one, though, and then nobody can log in.

## Main definitions

* `Service.ensureAdmin`
* `startCaster`: the handler of connections that a process starts with
* `processSystem`: account calls while a process runs, stops and starts in any order
* `OpenCall`: what reaches the account service without a session of the admin API
* `CanLogIn`, `LockedOut`: a login to the admin API, after a start

## Main results

* `Process.login_iff`: who can log in after a start
* `start_admin`: which starts succeed, and after which of them somebody can log in
-/

namespace NtripCaster

open Tables Transition

/-- Which of the two statements of `EnsureAdmin` has failed. -/
inductive EnsureAdminError
  | countAdmins
  | createUser (e : AccountError)
  deriving DecidableEq, Repr

/-- `EnsureAdmin`; `countFails` is the fault of its `SELECT COUNT(*)`. -/
def Service.ensureAdmin (bc : Bcrypt) (countFails : Bool) (s : Service)
    (salt username password : Bytes) : Service × Except EnsureAdminError Unit :=
  if countFails then (s, .error .countAdmins)
  else if 0 < s.users.rows.countP (·.role == roleAdmin) then (s, .ok ())
  else
    match s.createUser bc salt username password roleAdmin with
    | (s, .ok _) => (s, .ok ())
    | (s, .error e) => (s, .error (.createUser e))

/-- `main`, from the open database to the handler that `NewServer` gives every connection. -/
def startCaster (bc : Bcrypt) (countFails : Bool) (cfg : Config)
    (defaults : MountpointDefaultsConfig) (maxClients : ℤ) (salt : Bytes) (db : Database) :
    Except EnsureAdminError ConnHandler :=
  match db.newService.ensureAdmin bc countFails salt (ascii "admin") (ascii "admin") with
  | (_, .error e) => .error e -- `os.Exit(1)`
  | (svc, .ok ()) =>
    .ok {
      cfg := cfg
      mgr := syncMountpoints defaults db.mountpoints .new
      acctSvc := svc
      globalLimiter := newGlobalLimiter maxClients }

/-! ## Processes -/

/-- The account service of a process, or the tables that the last one has left. -/
structure Process where
  svc : AcctSvc
  running : Bool

/-- What may happen to the process; a stop may come at any time. -/
inductive ProcessStep
  | call (c : AccountCall)
  | stop
  | start (countFails : Bool) (salt : Bytes)

namespace Process

variable (bc : Bcrypt) (p : Process)

/-- `NewService` on the tables. -/
def newService : Service := .new p.svc.users p.svc.mountpoints.rows []

/-- A process starts; one that cannot ensure an admin exits. -/
def start (countFails : Bool) (salt : Bytes) : Process :=
  match p.newService.ensureAdmin bc countFails salt (ascii "admin") (ascii "admin") with
  | (_, .error _) => p
  | (s, .ok ()) => ⟨p.svc.withUsers s, true⟩

/-- Calls need a process that runs, and only one runs at a time. -/
def step : ProcessStep → Option Process
  | .call c =>
    if p.running then some { p with svc := p.svc.withUsers (p.svc.toService.call bc c) } else none
  | .stop => if p.running then some { p with running := false } else none
  | .start countFails salt => if p.running then none else some (p.start bc countFails salt)

end Process

/-- Every hash was made from a password. -/
def UserTable.Hashed (bc : Bcrypt) (t : UserTable) : Prop :=
  ∀ u ∈ t.rows, ∃ salt password, bc.generateFromPassword salt password = some u.passwordHash

/-- Calls of the account service while a process runs, stops and starts. -/
def processSystem (bc : Bcrypt) : System Process ProcessStep where
  init p := p.running = false ∧ p.svc.users.Hashed bc
  step p a := p.step bc a

namespace UserTable

variable (t : UserTable)

/-- There is an account of the role `admin`. -/
def HasAdmin : Prop := ∃ u ∈ t.rows, u.role = roleAdmin

/-- There is one that is enabled. -/
def HasEnabledAdmin : Prop := ∃ u ∈ t.rows, u.role = roleAdmin ∧ u.scan.enabled = true

variable {t} {bc : Bcrypt} {s : Service}

theorem hasAdmin_iff : t.HasAdmin ↔ 0 < t.rows.countP (·.role == roleAdmin) := by
  rw [List.countP_pos_iff]
  simp only [HasAdmin, beq_iff_eq]

theorem HasEnabledAdmin.hasAdmin (h : t.HasEnabledAdmin) : t.HasAdmin := by
  obtain ⟨u, hu, hrole, -⟩ := h
  exact ⟨u, hu, hrole⟩

/-! ## Hashes -/

theorem Hashed.modify (h : t.Hashed bc) {id : ℤ} {f : UserRow → UserRow}
    (hf : ∀ r, (f r).id = r.id ∧ (f r).username = r.username)
    (hhash : ∀ r ∈ t.rows, ∃ salt password,
      bc.generateFromPassword salt password = some (f r).passwordHash) :
    Hashed bc (t.modify id f hf) := by
  intro u hu
  obtain ⟨r, hr, rfl⟩ := List.mem_map.mp hu
  split_ifs
  · exact hhash r hr
  · exact h r hr

theorem Hashed.createUser (h : s.users.Hashed bc) (salt username password role : Bytes) :
    (s.createUser bc salt username password role).1.users.Hashed bc := by
  unfold Service.createUser
  cases hhash : bc.generateFromPassword salt password with
  | none => exact h
  | some hash =>
    rcases s.users.insert_cases username hash role with ⟨hnone, -⟩ | ⟨users, hsome, -, hrows⟩
    · simp only [hnone]
      exact h
    · simp only [hsome]
      intro u hu
      rcases List.mem_append.mp (hrows ▸ hu) with hu | hu
      · exact h u hu
      · exact List.mem_singleton.mp hu ▸ ⟨salt, password, hhash⟩

theorem Hashed.call (h : s.users.Hashed bc) (c : AccountCall) : (s.call bc c).users.Hashed bc := by
  cases c with
  | createUser salt username password role =>
    show (s.createUserRequest bc salt username password role).users.Hashed bc
    unfold Service.createUserRequest
    split_ifs
    · exact h
    · exact h.createUser salt username password role
  | updateUser id role enabled =>
    exact h.modify (f := fun r => { r with role := role, enabled := if enabled then 1 else 0 })
      (fun _ => ⟨rfl, rfl⟩) fun r hr => h r hr
  | updatePassword salt id newPassword =>
    show (s.updatePassword bc salt id newPassword).1.users.Hashed bc
    unfold Service.updatePassword
    cases hhash : bc.generateFromPassword salt newPassword with
    | none => exact h
    | some hash =>
      exact h.modify (f := fun r => { r with passwordHash := hash }) (fun _ => ⟨rfl, rfl⟩)
        fun _ _ => ⟨salt, newPassword, hhash⟩
  | deleteUser id => exact fun u hu => h u (Table.mem_delete.mp hu).1
  | authenticate now now' username password =>
    have husers := s.users_authenticate bc noFault now now' username password
    exact fun u hu => h u (husers ▸ hu)

end UserTable

/-! ## Logins -/

/-- What reaches the account service without a session of the admin API: the credentials of a
connection, and a login. -/
inductive OpenCall
  | authenticate (fails : Query → Bool) (now now' : ℤ) (username password : Bytes)
  | login (fails : Query → Bool) (now now' now'' : ℤ) (rand : Option Bytes) (sm : SessionManager)
      (body : Option LoginRequest)

/-- The account service after such a call. -/
def AcctSvc.openCall (bc : Bcrypt) (svc : AcctSvc) : OpenCall → AcctSvc
  | .authenticate fails now now' username password =>
    svc.withUsers (svc.toService.authenticate bc fails now now' username password).1
  | .login fails now now' now'' rand sm body =>
    (svc.login bc fails now now' now'' rand sm body).1

/-- Some request logs in as the first, whenever it comes. -/
def CanLogIn (bc : Bcrypt) (p : Process) : Prop :=
  ∃ req : LoginRequest, ∀ now now' now'' rand sm, ∃ token u,
    (p.svc.login bc noFault now now' now'' (some rand) sm (some req)).2.2 = .ok (token, u)

/-- No request ever logs in, whatever logins and connections came before it. -/
def LockedOut (bc : Bcrypt) (p : Process) : Prop :=
  ∀ (calls : List OpenCall) fails now now' now'' rand sm body, ∃ e,
    ((calls.foldl (AcctSvc.openCall bc) p.svc).login bc fails now now' now'' rand sm body).2.2 =
      .error e

section Login

variable {bc : Bcrypt} {svc : AcctSvc}

/-- With an empty cache it is the row of the name that decides. -/
theorem authenticate_of_cache_empty (hcache : svc.authCache = ∅) (now now' : ℤ)
    (username password : Bytes) :
    (svc.toService.authenticate bc noFault now now' username password).2 =
      .ok (Service.checkUser bc ((svc.users.byName username).map UserRow.scan) password) := by
  refine (Service.authenticate_of_cacheLookup_none ?_).trans
    (Service.authenticateUncached_noFault username password)
  rw [Service.cacheLookup, AcctSvc.toService, hcache]
  rfl

/-- Such calls leave the accounts alone, and what the cache holds is true of them. -/
theorem foldl_openCall (hcache : svc.toService.CacheCurrent bc) (calls : List OpenCall) :
    (calls.foldl (AcctSvc.openCall bc) svc).users = svc.users ∧
      (calls.foldl (AcctSvc.openCall bc) svc).toService.CacheCurrent bc := by
  induction calls generalizing svc with
  | nil => exact ⟨rfl, hcache⟩
  | cons c calls ih =>
    have hone : (svc.openCall bc c).users = svc.users ∧
        (svc.openCall bc c).toService.CacheCurrent bc := by
      cases c with
      | authenticate fails now now' username password =>
        exact ⟨svc.toService.users_authenticate bc fails now now' username password,
          (hcache.authenticate fails now now' username password).congr rfl rfl⟩
      | login fails now now' now'' rand sm body => exact (AcctSvc.login_cases hcache rfl).1
    obtain ⟨husers, hcur⟩ := ih hone.2
    exact ⟨husers.trans hone.1, hcur⟩

theorem login_of_admin (hcache : svc.authCache = ∅) {u : UserRow} (hu : u ∈ svc.users.rows)
    (hrole : u.role = roleAdmin) (henabled : u.scan.enabled = true) {password : Bytes}
    (hpassword : bc.compareHashAndPassword u.passwordHash password = true) (now now' now'' : ℤ)
    (rand : Bytes) (sm : SessionManager) :
    ∃ token user, (svc.login bc noFault now now' now'' (some rand) sm
      (some ⟨u.username, password⟩)).2.2 = .ok (token, user) := by
  have hrow : svc.users.byName u.username = some u := UserTable.byName_eq_some.mpr ⟨hu, rfl⟩
  have hcheck : Service.checkUser bc ((svc.users.byName u.username).map UserRow.scan) password =
      some u.scan :=
    Service.checkUser_eq_some.mpr ⟨congrArg (Option.map _) hrow, henabled, hpassword⟩
  have hauth : (svc.toService.authenticate bc noFault now now' u.username password).2 =
      .ok (some u.scan) :=
    hcheck ▸ authenticate_of_cache_empty hcache now now' u.username password
  unfold AcctSvc.login
  cases hres : svc.toService.authenticate bc noFault now now' u.username password with
  | mk s answer =>
    obtain rfl : answer = .ok (some u.scan) := by rw [← hauth, hres]
    have hadmin : ¬ u.scan.role ≠ roleAdmin := not_not.mpr hrole
    simp only [hres, if_neg hadmin]
    exact ⟨_, _, rfl⟩

end Login

/-! ## Starts -/

section Start

variable {bc : Bcrypt} {p : Process} {salt : Bytes}

/-- A start finds an admin, or adds one, or finds the name taken. -/
theorem Process.start_cases (hhash : ∀ salt, bc.generateFromPassword salt (ascii "admin") ≠ none)
    (p : Process) (salt : Bytes) :
    (p.svc.users.HasAdmin ∧ (p.start bc false salt).running = true ∧
        (p.start bc false salt).svc.authCache = ∅ ∧
        (p.start bc false salt).svc.users = p.svc.users) ∨
      (¬ p.svc.users.HasAdmin ∧ (∃ u ∈ p.svc.users.rows, u.username = ascii "admin") ∧
        p.start bc false salt = p) ∨
      ¬ p.svc.users.HasAdmin ∧ (∀ u ∈ p.svc.users.rows, u.username ≠ ascii "admin") ∧
        (p.start bc false salt).running = true ∧ (p.start bc false salt).svc.authCache = ∅ ∧
        ∃ u ∈ (p.start bc false salt).svc.users.rows, u.role = roleAdmin ∧
          u.scan.enabled = true ∧
          bc.generateFromPassword salt (ascii "admin") = some u.passwordHash := by
  unfold start Service.ensureAdmin
  rw [if_neg Bool.false_ne_true]
  have husers : p.newService.users = p.svc.users := rfl
  rw [husers]
  by_cases hadmin : p.svc.users.HasAdmin
  · rw [if_pos (UserTable.hasAdmin_iff.mp hadmin)]
    exact .inl ⟨hadmin, rfl, rfl, rfl⟩
  · rw [if_neg fun h => hadmin (UserTable.hasAdmin_iff.mpr h)]
    right
    unfold Service.createUser
    cases hnew : bc.generateFromPassword salt (ascii "admin") with
    | none => exact absurd hnew (hhash salt)
    | some hash =>
      rcases p.svc.users.insert_cases (ascii "admin") hash roleAdmin with
        ⟨hnone, hu⟩ | ⟨users, hsome, -, hrows⟩
      · refine .inl ⟨hadmin, hu, ?_⟩
        simp only [husers, hnone]
      · refine .inr ⟨hadmin, fun u hu heq => ?_, ?_⟩
        · have hmem : ascii "admin" ∈ p.svc.users.rows.map UserRow.username :=
            heq ▸ List.mem_map_of_mem hu
          rw [UserTable.insert, Tables.Table.insert, dif_pos hmem] at hsome
          cases hsome
        · simp only [husers, hsome]
          exact ⟨trivial, rfl, _, hrows ▸ List.mem_append_right _ (List.mem_singleton_self _), rfl,
            rfl, rfl⟩

theorem Service.hashed_ensureAdmin {s : Service} (h : s.users.Hashed bc) (countFails : Bool)
    (salt username password : Bytes) :
    (s.ensureAdmin bc countFails salt username password).1.users.Hashed bc := by
  have hcreate := h.createUser salt username password roleAdmin
  unfold Service.ensureAdmin
  split_ifs
  · exact h
  · exact h
  · split
    next heq =>
      rw [heq] at hcreate
      exact hcreate
    next heq =>
      rw [heq] at hcreate
      exact hcreate

theorem Process.hashed_start (h : p.svc.users.Hashed bc) (countFails : Bool) :
    (p.start bc countFails salt).svc.users.Hashed bc := by
  have hensure := Service.hashed_ensureAdmin (s := p.newService) h countFails salt (ascii "admin")
    (ascii "admin")
  unfold start
  split
  · exact h
  next heq =>
    rw [heq] at hensure
    exact hensure

theorem processSystem_hashed (h : (processSystem bc).Reachable p) : p.svc.users.Hashed bc := by
  refine h.invariant (I := fun p => p.svc.users.Hashed bc) ?_ fun p a p' _ hp hstep => ?_
  · rintro q ⟨-, hq⟩
    exact hq
  cases a with
  | call c =>
    obtain ⟨-, hstep⟩ := Option.ite_none_right_eq_some.mp hstep
    obtain rfl := Option.some.inj hstep
    exact UserTable.Hashed.call hp c
  | stop =>
    obtain ⟨-, hstep⟩ := Option.ite_none_right_eq_some.mp hstep
    exact Option.some.inj hstep ▸ hp
  | start countFails salt =>
    obtain ⟨-, hstep⟩ := Option.ite_none_left_eq_some.mp hstep
    exact Option.some.inj hstep ▸ p.hashed_start hp countFails

/-- With an enabled admin somebody can log in after a start, and else nobody. -/
theorem Process.login_iff (hbc : bc.Complete) (hcache : p.svc.authCache = ∅)
    (hhashed : p.svc.users.Hashed bc) :
    (p.svc.users.HasEnabledAdmin → CanLogIn bc p) ∧
      (¬ p.svc.users.HasEnabledAdmin → LockedOut bc p) := by
  constructor
  · rintro ⟨u, hu, hrole, henabled⟩
    obtain ⟨salt, password, hhash⟩ := hhashed u hu
    have hpassword : bc.compareHashAndPassword u.passwordHash password = true :=
      hbc salt password _ hhash
    exact ⟨⟨u.username, password⟩, fun now now' now'' rand sm =>
      login_of_admin hcache hu hrole henabled hpassword now now' now'' rand sm⟩
  · intro hnone calls fails now now' now'' rand sm body
    obtain ⟨husers, hcur⟩ := foldl_openCall (.of_empty hcache) calls
    cases hres : (calls.foldl (AcctSvc.openCall bc) p.svc).login bc fails now now' now'' rand sm
        body with
    | mk svc' rest =>
      obtain ⟨-, ⟨e, he, -⟩ | ⟨token, u, -, -, hadmin⟩⟩ := AcctSvc.login_cases hcur hres
      · exact ⟨e, he⟩
      · rw [husers] at hadmin
        obtain ⟨row, hrow, -, henabled, hrole⟩ := hadmin
        exact absurd ⟨row, (UserTable.byName_eq_some.mp hrow).1, hrole, henabled⟩ hnone

end Start

/-- **Starts and admins.** A process that starts on the tables that any calls, stops and starts have
left comes up exactly if they have an admin, or no account of the name `admin` in the way of a new
one; else it exits and leaves them as they are. Somebody can log in after the start exactly if one
of the admins is enabled, or there was none; a disabled one keeps a new one from being added, and
no login is accepted then, whatever logins and connections come before it. The next start, on
tables that nobody has changed, changes nothing. -/
theorem start_admin {bc : Bcrypt} (hbc : bc.Complete)
    (hhash : ∀ salt, bc.generateFromPassword salt (ascii "admin") ≠ none) {p p' : Process}
    (h : (processSystem bc).Reachable p) {salt : Bytes}
    (hstep : (processSystem bc).step p (.start false salt) = some p') :
    (p'.running = true ↔
        p.svc.users.HasAdmin ∨ ∀ u ∈ p.svc.users.rows, u.username ≠ ascii "admin") ∧
      (p'.running = false → p' = p) ∧
      (p'.running = true →
        (p.svc.users.HasEnabledAdmin ∨ ¬ p.svc.users.HasAdmin → CanLogIn bc p') ∧
        (¬ (p.svc.users.HasEnabledAdmin ∨ ¬ p.svc.users.HasAdmin) → LockedOut bc p') ∧
        ∀ salt', ({ p' with running := false }.start bc false salt').svc.users = p'.svc.users) := by
  have hhashed := processSystem_hashed h
  obtain ⟨hstopped, hstep⟩ := Option.ite_none_left_eq_some.mp hstep
  obtain rfl := Option.some.inj hstep
  have hstopped : p.running = false := by simpa using hstopped
  have hhashed' : (p.start bc false salt).svc.users.Hashed bc := p.hashed_start hhashed false
  -- once there is an admin, a start leaves the users alone
  have hkept : ∀ q : Process, q.svc.users.HasAdmin → ∀ salt',
      (q.start bc false salt').svc.users = q.svc.users := by
    intro q hq salt'
    rcases q.start_cases hhash salt' with ⟨-, -, -, hsame⟩ | ⟨hnone, -⟩ | ⟨hnone, -⟩
    · exact hsame
    · exact absurd hq hnone
    · exact absurd hq hnone
  rcases p.start_cases hhash salt with
    ⟨hadmin, hrun, hcache, hsame⟩ | ⟨hnone, ⟨u, hu, hname⟩, hsame⟩ |
    ⟨hnone, hfree, hrun, hcache, u, hu, hrole, henabled, -⟩
  · refine ⟨iff_of_true hrun (.inl hadmin), fun hno => ?_, fun _ => ?_⟩
    · rw [hrun] at hno
      cases hno
    · obtain ⟨hin, hout⟩ := Process.login_iff hbc hcache hhashed'
      rw [hsame] at hin hout
      refine ⟨fun hgood => hin (hgood.resolve_right (not_not.mpr hadmin)),
        fun hbad => hout fun hen => hbad (.inl hen), hkept _ (hsame.symm ▸ hadmin)⟩
  · rw [hsame, hstopped]
    refine ⟨iff_of_false Bool.false_ne_true fun hgood => ?_, fun _ => rfl, fun hrun => ?_⟩
    · exact hgood.elim hnone fun hfree => hfree u hu hname
    · cases hrun
  · refine ⟨iff_of_true hrun (.inr hfree), fun hno => ?_, fun _ => ?_⟩
    · rw [hrun] at hno
      cases hno
    · have hadmin : (p.start bc false salt).svc.users.HasEnabledAdmin := ⟨u, hu, hrole, henabled⟩
      obtain ⟨hin, -⟩ := Process.login_iff hbc hcache hhashed'
      exact ⟨fun _ => hin hadmin, fun hbad => absurd (.inr hnone) hbad, hkept _ hadmin.hasAdmin⟩

/-- The tables of a new file. -/
def newFile : Process := ⟨⟨.empty, .empty, ∅⟩, false⟩

/-- The first start adds the admin, whom a request disables before the process stops. -/
def disabledAdmin : List ProcessStep :=
  [.start false [], .call (.updateUser 1 roleAdmin false), .stop]

theorem start_admin_disabled :
    ∃ p p', (processSystem plainBcrypt).run newFile disabledAdmin = some p ∧
      (processSystem plainBcrypt).step p (.start false []) = some p' ∧
      p.svc.users.rows.map UserRow.scan =
        [⟨1, ascii "admin", ascii "admin", roleAdmin, false⟩] ∧ p'.running = true ∧
      (p'.running = true ↔
        p.svc.users.HasAdmin ∨ ∀ u ∈ p.svc.users.rows, u.username ≠ ascii "admin") ∧
      (p'.running = false → p' = p) ∧
      (p'.running = true →
        (p.svc.users.HasEnabledAdmin ∨ ¬ p.svc.users.HasAdmin → CanLogIn plainBcrypt p') ∧
        (¬ (p.svc.users.HasEnabledAdmin ∨ ¬ p.svc.users.HasAdmin) → LockedOut plainBcrypt p') ∧
        ∀ salt', ({ p' with running := false }.start plainBcrypt false salt').svc.users =
          p'.svc.users) := by
  obtain ⟨p, p', hrun, hstep, hrows, hup⟩ :
      ∃ p p', (processSystem plainBcrypt).run newFile disabledAdmin = some p ∧
        (processSystem plainBcrypt).step p (.start false []) = some p' ∧
        p.svc.users.rows.map UserRow.scan =
          [⟨1, ascii "admin", ascii "admin", roleAdmin, false⟩] ∧ p'.running = true :=
    ⟨_, _, rfl, rfl, rfl, rfl⟩
  have hinit : (processSystem plainBcrypt).init newFile := ⟨rfl, fun u hu => by cases hu⟩
  have hhash : ∀ salt, plainBcrypt.generateFromPassword salt (ascii "admin") ≠ none := by
    intro salt h
    cases h
  exact ⟨p, p', hrun, hstep, hrows, hup,
    start_admin plainBcrypt_correct.complete hhash (.of_run _ hinit hrun) hstep⟩

end NtripCaster
