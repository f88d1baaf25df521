import NtripCaster.Caster.Access
import NtripCaster.Caster.Start
import NtripCaster.Testenv.Setup

/-!
# The quick start

What `cmd/testenv/main.go` prepares is used: the caster starts on its tables and its configuration,
and stations connect as the commands that it prints make them: one at a time, each handled to its
end before the next is accepted, and without one that leaves. Whatever the order in which they come,
and however their requests are cut, the caster lets them in as a counter at a door would: a base
station if it is the first of its mountpoint, a rover behind a base station as long as there is
room.

## Main definitions

* `Station`, `Occupancy`: the stations, and who of them is in
* `Arrival`, `Arrival.Dials`: a connection of a station that one of the commands has started
* `ConnHandler.handleAll`: connections that are handled one at a time

## Main results

* `Occupancy.run_script`: the base stations first, then the rovers
* `ConnHandler.serve_eq_register`, `ConnHandler.Holds.register`: the handlers against the counter
* `Testenv.quick_start`
-/

namespace NtripCaster

/-! ## Who is let in -/

/-- A program that is started at the bench, and its mountpoint. -/
inductive Station
  | base (mount : Bytes)
  | rover (mount : Bytes)
  deriving DecidableEq, Repr

/-- The mountpoints with a base station, and the number of rovers. -/
structure Occupancy where
  bases : List Bytes := []
  rovers : ℕ := 0

namespace Occupancy

variable (maxClients : ℤ) (s : Occupancy)

/-- A base needs a mountpoint of its own, a rover one with a base and a place below the limit. -/
def admits : Station → Bool
  | .base mount => !s.bases.contains mount
  | .rover mount => s.bases.contains mount && decide (s.rovers < maxClients)

/-- Who has been let in is counted. -/
def enter : Station → Occupancy
  | .base mount => { s with bases := mount :: s.bases }
  | .rover _ => { s with rovers := s.rovers + 1 }

/-- A station comes, and is in if it is admitted. -/
def arrive (station : Station) : Occupancy :=
  if s.admits maxClients station then s.enter station else s

/-- Which of the stations are let in, one after the other. -/
def run : Occupancy → List Station → List Bool
  | _, [] => []
  | s, station :: stations =>
    s.admits maxClients station :: run (s.arrive maxClients station) stations

variable {maxClients s} {mount : Bytes}

theorem admits_base : s.admits maxClients (.base mount) = true ↔ mount ∉ s.bases := by
  simp [admits]

theorem admits_rover :
    s.admits maxClients (.rover mount) = true ↔ mount ∈ s.bases ∧ s.rovers < maxClients := by
  simp [admits]

theorem run_base {mounts : List Bytes} (hnodup : (mounts.reverse ++ s.bases).Nodup)
    (stations : List Station) :
    run maxClients s (mounts.map .base ++ stations) = List.replicate mounts.length true ++
      run maxClients ⟨mounts.reverse ++ s.bases, s.rovers⟩ stations := by
  induction mounts generalizing s with
  | nil => rfl
  | cons mount mounts ih =>
    rw [List.reverse_cons, List.append_assoc, List.singleton_append] at hnodup ⊢
    have hnew : mount ∉ s.bases :=
      (List.nodup_cons.mp (List.nodup_append.mp hnodup).2.1).1
    have hadmits : s.admits maxClients (.base mount) = true := admits_base.mpr hnew
    have harrive : s.arrive maxClients (.base mount) = ⟨mount :: s.bases, s.rovers⟩ :=
      if_pos hadmits
    rw [List.map_cons, List.cons_append, run, harrive, ih hnodup, hadmits]
    rfl

theorem run_rover {mounts : List Bytes} (hbases : ∀ mount ∈ mounts, mount ∈ s.bases)
    (hroom : (s.rovers + mounts.length : ℤ) ≤ maxClients) :
    run maxClients s (mounts.map .rover) = List.replicate mounts.length true := by
  induction mounts generalizing s with
  | nil => rfl
  | cons mount mounts ih =>
    have ⟨hbase, hbases⟩ := List.forall_mem_cons.mp hbases
    rw [List.length_cons] at hroom
    have hadmits : s.admits maxClients (.rover mount) = true := admits_rover.mpr ⟨hbase, by omega⟩
    have harrive : s.arrive maxClients (.rover mount) = ⟨s.bases, s.rovers + 1⟩ := if_pos hadmits
    have hroom' : ((s.rovers + 1 : ℕ) + mounts.length : ℤ) ≤ maxClients := by omega
    have hrest := ih (s := ⟨s.bases, s.rovers + 1⟩) hbases hroom'
    rw [List.map_cons, run, hadmits, harrive, hrest, List.length_cons, List.replicate_succ]

/-- The base stations first, one for each mountpoint, and then the rovers: they are all let in. -/
theorem run_script {mounts rovers : List Bytes} (hnodup : mounts.Nodup)
    (hrovers : ∀ mount ∈ rovers, mount ∈ mounts) (hroom : (rovers.length : ℤ) ≤ maxClients) :
    ∀ b ∈ run maxClients {} (mounts.map .base ++ rovers.map .rover), b = true := by
  have hnodup' : (mounts.reverse ++ ({} : Occupancy).bases).Nodup := by
    rw [List.append_nil]
    exact List.nodup_reverse.mpr hnodup
  rw [run_base hnodup', run_rover, ← List.replicate_add]
  · exact fun b hb => List.eq_of_mem_replicate hb
  · intro mount hmount
    rw [List.append_nil]
    exact List.mem_reverse.mpr (hrovers mount hmount)
  · simpa using hroom

end Occupancy

/-! ## Connections -/

/-- What a handler has written. -/
def Outcome.response : Outcome → Bytes
  | .closed response => response
  | .rover response _ _ => response
  | .source response _ _ => response
  | .panicked => []

namespace Station

/-- The mountpoint that it asks for. -/
def mount : Station → Bytes
  | .base mount => mount
  | .rover mount => mount

/-- The session that the station asks for has been started on its mountpoint. -/
def isIn : Station → Outcome → Bool
  | .base mount, .source _ mount' _ => mount' == mount
  | .rover mount, .rover _ mount' _ => mount' == mount
  | _, _ => false

/-- What its request is parsed as; `-rev` is 2 unless it is given. -/
def requestType : Station → RequestType
  | .base _ => .sourceRev2
  | .rover _ => .rover

/-- The user that the printed commands name for the station. -/
def user : Station → Bytes
  | .base _ => Testenv.baseUser
  | .rover _ => Testenv.roverUser

end Station

namespace Service

variable (bc : Bcrypt) (names : List Bytes) (s : Service)

/-- There is an enabled account with the password and the role, and it is bound to each of the
mountpoints. -/
def Employs (username password role : Bytes) : Prop :=
  ∃ row ∈ s.users.rows, row.username = username ∧ row.role = role ∧ row.scan.enabled = true ∧
    bc.compareHashAndPassword row.passwordHash password = true ∧
    ∀ name ∈ names, s.hasBinding noFault row.id name = .ok true

/-- The accounts of the two stations, whatever the cache holds of them. -/
structure Staffed : Prop where
  cache : s.CacheCurrent bc
  colon : ∀ u ∈ s.users.rows, 58 ∉ u.username
  base : s.Employs bc names Testenv.baseUser Testenv.password roleBase
  rover : s.Employs bc names Testenv.roverUser Testenv.password roleRover

variable {bc names s}

/-- Where no name holds a colon, the cache answers for the pair that it is asked for. -/
theorem authenticate_of_row (hcur : s.CacheCurrent bc)
    (hcolon : ∀ u ∈ s.users.rows, 58 ∉ u.username) {row : UserRow}
    (hrow : row ∈ s.users.rows) (henabled : row.scan.enabled = true) {password : Bytes}
    (hpassword : bc.compareHashAndPassword row.passwordHash password = true) (now now' : ℤ) :
    (s.authenticate bc noFault now now' row.username password).2 = .ok (some row.scan) := by
  have hname : s.users.byName row.username = some row := UserTable.byName_eq_some.mpr ⟨hrow, rfl⟩
  cases hlookup : s.cacheLookup (cacheKey row.username password) now with
  | none =>
    rw [authenticate_of_cacheLookup_none hlookup, authenticateUncached_eq_some]
    exact ⟨congrArg (Option.map _) hname, henabled, hpassword⟩
  | some u =>
    -- the entry is of the row of its own name, which is the name asked for
    obtain ⟨password', hkey, hauth⟩ := hcur.of_cacheLookup hlookup
    obtain ⟨hu, -⟩ := authenticateUncached_eq_some.mp hauth
    obtain ⟨r, hr, rfl⟩ := Option.map_eq_some_iff.mp hu
    have hmem : r ∈ s.users.rows := (UserTable.byName_eq_some.mp hr).1
    have heq : row.username = r.scan.username := by
      by_contra hne
      exact (colon_of_cacheKey_eq hkey hne).elim (hcolon row hrow) (hcolon r hmem)
    rw [← heq, hname] at hr
    obtain rfl := Option.some.inj hr
    exact authenticate_of_cacheLookup hlookup

theorem Staffed.authenticate (hs : s.Staffed bc names) (now now' : ℤ)
    (username password : Bytes) :
    (s.authenticate bc noFault now now' username password).1.Staffed bc names := by
  have husers := s.users_authenticate bc noFault now now' username password
  have hbinding := s.hasBinding_authenticate bc noFault now now' username password noFault
  have hemploys : ∀ username' role, s.Employs bc names username' Testenv.password role →
      (s.authenticate bc noFault now now' username password).1.Employs bc names username'
        Testenv.password role := by
    rintro username' role ⟨row, hrow, hname, hrole, henabled, hpassword, hbound⟩
    exact ⟨row, husers ▸ hrow, hname, hrole, henabled, hpassword, fun name hn =>
      (hbinding row.id name).trans (hbound name hn)⟩
  exact ⟨hs.cache.authenticate noFault now now' username password, husers ▸ hs.colon,
    hemploys _ _ hs.base, hemploys _ _ hs.rover⟩

end Service

namespace ConnHandler

variable (bc : Bcrypt)

/-- Connections, each of which is handled to its end before the next is accepted, past the limit per
address: no two handlers run at a time, as they may in `ListenAndServe`. -/
def handleAll : ConnHandler → List (Env × List Bytes) → Option (ConnHandler × List Outcome)
  | h, [] => some (h, [])
  | h, (env, conn) :: rest =>
    match h.handle bc env conn with
    | none => none
    | some (h, outcome, _) =>
      (h.handleAll rest).map fun (h, outcomes) => (h, outcome :: outcomes)

variable {bc} {env : Env} {h : ConnHandler} {names : List Bytes} {req : NTRIPRequest}

/-- Credentials of an account of the role pass. -/
theorem authenticateBasic_of_employs (hs : h.acctSvc.Staffed bc names)
    (hdb : env.fails = noFault) {username role : Bytes}
    (hemploys : h.acctSvc.Employs bc names username Testenv.password role)
    (hcred : parseBasicAuth (req.header "Authorization") = some (username, Testenv.password)) :
    ∃ (svc : Service) (row : UserRow),
      h.authenticateBasic bc env req role = (svc, .ok (some row.scan)) ∧
      svc.Staffed bc names ∧ row.role = role ∧
      ∀ name ∈ names, svc.hasBinding env.fails row.id name = .ok true := by
  obtain ⟨row, hrow, rfl, hrole, henabled, hpassword, hbound⟩ := hemploys
  have hheader : req.header "Authorization" ≠ [] := by
    intro hnil
    rw [hnil] at hcred
    cases hcred
  have hauth := Service.authenticate_of_row hs.cache hs.colon hrow henabled hpassword env.now
    env.now'
  have hstaffed := hs.authenticate env.now env.now' row.username Testenv.password
  have hbinding := h.acctSvc.hasBinding_authenticate bc noFault env.now env.now' row.username
    Testenv.password noFault row.id
  unfold authenticateBasic
  rw [if_neg hheader, hcred, hdb]
  dsimp only
  cases hres : h.acctSvc.authenticate bc noFault env.now env.now' row.username
      Testenv.password with
  | mk svc answer =>
    rw [hres] at hauth hstaffed hbinding
    obtain rfl : answer = .ok (some row.scan) := hauth
    refine ⟨svc, row, ?_, hstaffed, hrole, fun name hn => (hbinding name).trans (hbound name hn)⟩
    have hrole' : row.scan.role = role := hrole
    simp only [hrole', ne_eq, not_true_eq_false, if_false]
    split_ifs <;> rfl

/-- **What a station is asked for, it has**: its request goes on to the registration. -/
theorem serve_eq_register {auth : Bool} (hs : h.acctSvc.Staffed bc names)
    (hcfg : h.cfg = Testenv.config auth) (hdb : env.fails = noFault) {station : Station}
    (hmount : station.mount ∈ names)
    (hreq : req.Says station.requestType station.mount (if auth then station.user else [])
      (if auth then Testenv.password else [])) :
    ∃ svc : Service, ∃ userID, svc.Staffed bc names ∧
      h.serve bc env req = ({ h with acctSvc := svc } : ConnHandler).register env req userID := by
  obtain ⟨htype, hname, hcred⟩ := hreq
  have henabled : h.cfg.auth.enabled = auth := by rw [hcfg, Testenv.config]
  have hmode : h.cfg.auth.ntripSourceAuth = ascii "user_binding" := by rw [hcfg, Testenv.config]
  have hbasic : h.cfg.auth.ntripRoverAuth = ascii "basic" := by rw [hcfg, Testenv.config]
  have hmem : req.mountPoint ∈ names := hname ▸ hmount
  cases auth with
  | false =>
    have hoff : ¬ h.cfg.auth.enabled = true := by simp [henabled]
    refine ⟨h.acctSvc, 0, hs, ?_⟩
    cases station with
    | base mount =>
      have htype : req.type = .sourceRev2 := htype
      rw [serve, register, htype]
      exact if_neg hoff
    | rover mount =>
      have htype : req.type = .rover := htype
      rw [serve, register, htype]
      exact if_neg fun hon => hoff hon.1
  | true =>
    cases station with
    | base mount =>
      have htype : req.type = .sourceRev2 := htype
      have huser : Testenv.baseUser ≠ [] := by decide
      obtain ⟨svc, row, hauth, hstaffed, -, hbound⟩ :=
        authenticateBasic_of_employs hs hdb hs.base (hcred huser)
      refine ⟨svc, row.id, hstaffed, ?_⟩
      rw [serve, register, htype]
      show h.handleSourceRev2 bc env req = _
      unfold handleSourceRev2
      rw [if_pos henabled, hauth]
      dsimp only
      rw [if_pos hmode]
      have hbinding : svc.hasBinding env.fails row.scan.id req.mountPoint = .ok true :=
        hbound _ hmem
      rw [hbinding]
      rfl
    | rover mount =>
      have htype : req.type = .rover := htype
      have huser : Testenv.roverUser ≠ [] := by decide
      obtain ⟨svc, row, hauth, hstaffed, hrole, hbound⟩ :=
        authenticateBasic_of_employs hs hdb hs.rover (hcred huser)
      have hadmin : ¬ row.scan.role = roleAdmin := by
        show ¬ row.role = roleAdmin
        rw [hrole]
        decide
      refine ⟨svc, row.id, hstaffed, ?_⟩
      rw [serve, register, htype]
      show h.handleRover bc env req = _
      unfold handleRover
      rw [if_pos ⟨henabled, hbasic⟩, hauth]
      dsimp only
      rw [if_neg hadmin]
      have hbinding : svc.hasBinding env.fails row.scan.id req.mountPoint = .ok true :=
        hbound _ hmem
      rw [hbinding]
      rfl

/-! ## The counter at the door -/

/-- The mountpoints are open to the stations, have a source where a base station is in, and the
rovers are counted. -/
structure Holds (names : List Bytes) (maxClients : ℤ) (s : Occupancy) (h : ConnHandler) : Prop where
  limiter : h.globalLimiter = ⟨s.rovers, maxClients⟩
  mounts : ∀ name ∈ names, ∃ mp, h.mgr.get name = some mp ∧ mp.enabled = true ∧
    FitsChan mp.writeQueue ∧ mp.maxClients = 0 ∧ (mp.hasSource = true ↔ name ∈ s.bases)

variable {maxClients : ℤ} {s s' : Occupancy} {userID : ℤ}

theorem Holds.congr (hh : Holds names maxClients s h) (svc : Service) :
    Holds names maxClients s { h with acctSvc := svc } :=
  ⟨hh.limiter, hh.mounts⟩

/-- A session starts on a mountpoint. -/
theorem Holds.set (hh : Holds names maxClients s h) {name : Bytes} {mp : MountPoint}
    {limiter : GlobalLimiter} (hlimiter : limiter = ⟨s'.rovers, maxClients⟩)
    (henabled : mp.enabled = true) (hqueue : FitsChan mp.writeQueue) (hlimit : mp.maxClients = 0)
    (hsource : mp.hasSource = true ↔ name ∈ s'.bases)
    (hothers : ∀ name', name' ≠ name → (name' ∈ s'.bases ↔ name' ∈ s.bases)) :
    Holds names maxClients s' { h with mgr := h.mgr.set name mp, globalLimiter := limiter } where
  limiter := hlimiter
  mounts name' hname' := by
    by_cases heq : name' = name
    · subst heq
      exact ⟨mp, Manager.get_set_self h.mgr _ mp, henabled, hqueue, hlimit, hsource⟩
    · obtain ⟨mp', hget, henabled', hqueue', hlimit', hsource'⟩ := hh.mounts name' hname'
      exact ⟨mp', (Manager.get_set_ne heq mp).trans hget, henabled', hqueue', hlimit',
        hsource'.trans (hothers name' heq).symm⟩

/-- The registration of a station is what the counter decides, and the answer tells the station. -/
structure Decides (names : List Bytes) (maxClients : ℤ) (s : Occupancy) (station : Station)
    (h : ConnHandler) (r : ConnHandler × Outcome) : Prop where
  holds : Holds names maxClients (s.arrive maxClients station) r.1
  acctSvc : r.1.acctSvc = h.acctSvc
  cfg : r.1.cfg = h.cfg
  isIn : station.isIn r.2 = s.admits maxClients station
  told : contains r.2.response (ascii "200") = s.admits maxClients station

/-- A refusal. -/
theorem Holds.refuse (hh : Holds names maxClients s h) {station : Station} {response : String}
    (hno : s.admits maxClients station = false)
    (htold : contains (ascii response) (ascii "200") = false) :
    Decides names maxClients s station h (h.refuse response) where
  holds := by
    rw [Occupancy.arrive, hno]
    exact hh
  acctSvc := rfl
  cfg := rfl
  isIn := by
    rw [hno]
    cases station <;> rfl
  told := htold.trans hno.symm

theorem Holds.newSource (hh : Holds names maxClients s h) (hmount : req.mountPoint ∈ names) :
    Decides names maxClients s (.base req.mountPoint) h
      (h.newSource env userID req "HTTP/1.1 200 OK\r\n\r\n") := by
  obtain ⟨mp, hget, henabled, hqueue, hlimit, hsource⟩ := hh.mounts _ hmount
  unfold ConnHandler.newSource
  rw [hget]
  simp only [henabled, Bool.not_true, Bool.false_eq_true, if_false]
  cases hsrc : mp.source with
  | some info =>
    have hin : req.mountPoint ∈ s.bases := hsource.mp (by simp [MountPoint.hasSource, hsrc])
    have hno : s.admits maxClients (.base req.mountPoint) = false :=
      Bool.eq_false_iff.mpr fun hyes => Occupancy.admits_base.mp hyes hin
    simp only [MountPoint.setSource, hsrc, Option.isSome_some, if_true]
    exact hh.refuse hno (by decide)
  | none =>
    have hout : req.mountPoint ∉ s.bases := fun hin => by
      simpa [MountPoint.hasSource, hsrc] using hsource.mpr hin
    have hyes : s.admits maxClients (.base req.mountPoint) = true := Occupancy.admits_base.mpr hout
    simp only [MountPoint.setSource, hsrc, Option.isSome_none, Bool.false_eq_true, if_false]
    have htold : contains (ascii "HTTP/1.1 200 OK\r\n\r\n") (ascii "200") = true := by decide
    refine ⟨?_, rfl, rfl, hyes ▸ beq_self_eq_true _, htold.trans hyes.symm⟩
    rw [Occupancy.arrive, if_pos hyes]
    refine hh.set hh.limiter henabled hqueue hlimit (iff_of_true rfl List.mem_cons_self) ?_
    exact fun name hne => List.mem_cons.trans (or_iff_right hne)

/-- A rover past authentication: the checks of `handleRover` are those of the counter. -/
theorem Holds.newRover (hh : Holds names maxClients s h) (hmount : req.mountPoint ∈ names) :
    Decides names maxClients s (.rover req.mountPoint) h (h.newRover env userID req) := by
  obtain ⟨mp, hget, henabled, hqueue, hlimit, hsource⟩ := hh.mounts _ hmount
  unfold ConnHandler.newRover
  rw [hget]
  simp only [henabled, Bool.not_true, Bool.false_eq_true, if_false]
  by_cases hin : req.mountPoint ∈ s.bases
  · rw [hsource.mpr hin]
    by_cases hroom : s.rovers < maxClients
    · have hyes : s.admits maxClients (.rover req.mountPoint) = true :=
        Occupancy.admits_rover.mpr ⟨hin, hroom⟩
      have hcap : h.globalLimiter.atCapacity = false := by
        rw [hh.limiter]
        exact decide_eq_false (Int.not_le.mpr hroom)
      have hfree : ¬ (0 < mp.maxClients ∧ mp.maxClients ≤ mp.clientsByID.len) := by
        rw [hlimit]
        exact fun hlt => absurd hlt.1 (lt_irrefl 0)
      simp only [Bool.not_true, Bool.false_eq_true, if_false, hcap, not_not.mpr hqueue,
        MountPoint.addClient, if_neg hfree]
      have htold : contains (ascii "ICY 200 OK\r\n\r\n") (ascii "200") = true := by decide
      refine ⟨?_, rfl, rfl, hyes ▸ beq_self_eq_true _, htold.trans hyes.symm⟩
      rw [Occupancy.arrive, if_pos hyes]
      refine hh.set ?_ henabled hqueue hlimit hsource fun _ _ => Iff.rfl
      rw [hh.limiter]
      rfl
    · have hno : s.admits maxClients (.rover req.mountPoint) = false :=
        Bool.eq_false_iff.mpr fun hyes => hroom (Occupancy.admits_rover.mp hyes).2
      have hcap : h.globalLimiter.atCapacity = true := by
        rw [hh.limiter]
        exact decide_eq_true (Int.not_lt.mp hroom)
      simp only [Bool.not_true, Bool.false_eq_true, if_false, hcap, if_true]
      exact hh.refuse hno (by decide)
  · have hno : s.admits maxClients (.rover req.mountPoint) = false :=
      Bool.eq_false_iff.mpr fun hyes => hin (Occupancy.admits_rover.mp hyes).1
    have hsrc : mp.hasSource = false := Bool.eq_false_iff.mpr fun hsrc => hin (hsource.mp hsrc)
    simp only [hsrc, Bool.not_false, if_true]
    exact hh.refuse hno (by decide)

theorem Holds.register (hh : Holds names maxClients s h) (env : Env) (userID : ℤ)
    {station : Station} (hmount : station.mount ∈ names) (htype : req.type = station.requestType)
    (hname : req.mountPoint = station.mount) :
    Decides names maxClients s station h (h.register env req userID) := by
  unfold ConnHandler.register
  rw [htype]
  cases station with
  | base mount =>
    obtain rfl : req.mountPoint = mount := hname
    exact hh.newSource hmount
  | rover mount =>
    obtain rfl : req.mountPoint = mount := hname
    exact hh.newRover hmount

end ConnHandler

/-! ## Stations that connect -/

/-- A connection of a station, with the results of its `Read` calls. -/
structure Arrival where
  station : Station
  env : Env
  conn : List Bytes

namespace Testenv

variable {bc : Bcrypt} {numMounts : ℕ} {pre : Bytes} {auth : Bool}

/-- One of the commands has started the station; its request arrives, cut in any way, and something
may follow it. No query fails. -/
structure Dials (numMounts : ℕ) (pre : Bytes) (auth : Bool) (a : Arrival) : Prop where
  db : ∀ q, a.env.fails q = false
  arrives : parseRequest (newReader a.conn) ≠ none
  sends : match a.station with
    | .base mount => mount ∈ (simbaseFlags numMounts pre auth).mountList ∧ ∃ request more,
        sendSourceRequest (simbaseFlags numMounts pre auth).rev mount
          (simbaseFlags numMounts pre auth).user (simbaseFlags numMounts pre auth).pass =
            .ok request ∧ a.conn.flatten = request ++ more
    | .rover mount => mount ∈ (simroverFlags numMounts pre auth).mountList ∧ ∃ more,
        a.conn.flatten = sendRoverRequest mount (simroverFlags numMounts pre auth).user
          (simroverFlags numMounts pre auth).pass ++ more

variable {a : Arrival}

/-- The request of the station is read as what it says. -/
theorem Dials.parsed (h : Dials numMounts pre auth a) (hpre : pre ≠ []) (hspace : NoSpace pre)
    (hcomma : 0x2C ∉ pre) (hnum : 1 ≤ numMounts) :
    a.station.mount ∈ mountNames numMounts pre ∧
      ∃ req r, parseRequest (newReader a.conn) = some (.ok (req, r)) ∧
        req.Says a.station.requestType a.station.mount (if auth then a.station.user else [])
          (if auth then password else []) := by
  have hcolon : ∀ user : Bytes, 58 ∉ user → 58 ∉ if auth then user else [] := by
    intro user huser
    split_ifs
    · exact huser
    · exact List.not_mem_nil
  obtain ⟨res, hres⟩ := Option.ne_none_iff_exists'.mp h.arrives
  have hsends := h.sends
  obtain ⟨station, env, conn⟩ := a
  cases station with
  | base mount =>
    obtain ⟨hmem, request, more, hrequest, hconn⟩ := hsends
    rw [buildMountList_simbase auth hpre] at hmem
    have huser : 58 ∉ baseUser := by decide
    obtain ⟨bytes, hbytes, hparsed⟩ := parsedAs_sendSourceRequest
      (noSpace_of_mem_mountNames hspace hmem) (hcolon baseUser huser)
      (if auth then password else [])
    obtain rfl := Except.ok.inj (hbytes.symm.trans hrequest)
    obtain ⟨req, r, rfl, hsays⟩ := hparsed.1 conn more hconn res hres
    exact ⟨hmem, req, r, hres, hsays⟩
  | rover mount =>
    obtain ⟨hmem, more, hconn⟩ := hsends
    rw [buildMountList_simrover auth hpre hspace hcomma hnum] at hmem
    have huser : 58 ∉ roverUser := by decide
    have hparsed := parsedAs_sendRoverRequest (ne_nil_of_mem_mountNames hpre hmem)
      (noSpace_of_mem_mountNames hspace hmem) (hcolon roverUser huser)
      (if auth then password else [])
    obtain ⟨req, r, rfl, hsays⟩ := hparsed.1 conn more hconn res hres
    exact ⟨hmem, req, r, hres, hsays⟩

/-- Stations that connect one at a time are let in as the counter says. -/
theorem handleAll_eq (hpre : pre ≠ []) (hspace : NoSpace pre) (hcomma : 0x2C ∉ pre)
    (hnum : 1 ≤ numMounts) {maxClients : ℤ} (arrivals : List Arrival) {s : Occupancy}
    {h : ConnHandler} (hstaffed : h.acctSvc.Staffed bc (mountNames numMounts pre))
    (hcfg : h.cfg = config auth) (hholds : h.Holds (mountNames numMounts pre) maxClients s)
    (hdials : ∀ a ∈ arrivals, Dials numMounts pre auth a) :
    ∃ h' outcomes, h.handleAll bc (arrivals.map fun a => (a.env, a.conn)) = some (h', outcomes) ∧
      List.zipWith Station.isIn (arrivals.map Arrival.station) outcomes =
        s.run maxClients (arrivals.map Arrival.station) ∧
      outcomes.map (fun o => contains o.response (ascii "200")) =
        s.run maxClients (arrivals.map Arrival.station) := by
  induction arrivals generalizing s h with
  | nil => exact ⟨h, [], rfl, rfl, rfl⟩
  | cons a arrivals ih =>
    have ⟨ha, hrest⟩ := List.forall_mem_cons.mp hdials
    obtain ⟨hmem, req, r, hparse, hsays⟩ := ha.parsed hpre hspace hcomma hnum
    have hdb : a.env.fails = noFault := funext ha.db
    obtain ⟨svc, userID, hsvc, hserve⟩ := ConnHandler.serve_eq_register hstaffed hcfg hdb hmem hsays
    have hdecides := (hholds.congr svc).register a.env userID hmem hsays.1 hsays.2.1
    rw [← hserve] at hdecides
    obtain ⟨h', outcomes, hall, hin, htold⟩ := ih (hdecides.acctSvc ▸ hsvc)
      (hdecides.cfg.trans hcfg) hdecides.holds hrest
    refine ⟨h', (h.serve bc a.env req).2 :: outcomes, ?_, ?_, ?_⟩
    · rw [List.map_cons, ConnHandler.handleAll, ConnHandler.handle, hparse]
      simp only [hall, Option.map_some]
    · rw [List.map_cons, List.zipWith_cons_cons, hin, hdecides.isIn, Occupancy.run]
    · rw [List.map_cons, List.map_cons, htold, hdecides.told, Occupancy.run]

/-! ## The start -/

theorem Populated.countP_admin {names : List Bytes} {db : Database} (h : Populated bc names db) :
    0 < db.users.rows.countP (·.role == roleAdmin) := by
  obtain ⟨hash₁, hash₂, hash₃, husers, -⟩ := h.users
  rw [husers, List.countP_pos_iff]
  exact ⟨_, .head _, rfl⟩

theorem Populated.staffed (hbc : bc.Complete) {names : List Bytes} {db : Database}
    (h : Populated bc names db) : db.newService.Staffed bc names where
  cache := .new _ _ _
  colon := by
    obtain ⟨hash₁, hash₂, hash₃, husers, -⟩ := h.users
    show ∀ u ∈ db.users.rows, 58 ∉ u.username
    rw [husers]
    simp only [List.forall_mem_cons]
    have hadmin : 58 ∉ ascii "admin" := by decide
    have hbase : 58 ∉ baseUser := by decide
    have hrover : 58 ∉ roverUser := by decide
    exact ⟨hadmin, hbase, hrover, fun u hu => by cases hu⟩
  base := by
    obtain ⟨hash, salt, hhash, hrow⟩ := h.base
    refine ⟨_, hrow, rfl, rfl, rfl, hbc salt password hash hhash, ?_⟩
    intro name hname
    rw [Database.hasBinding_iff_granted hrow, h.granted]
    exact ⟨.inl rfl, hname⟩
  rover := by
    obtain ⟨hash, salt, hhash, hrow⟩ := h.rover
    refine ⟨_, hrow, rfl, rfl, rfl, hbc salt password hash hhash, ?_⟩
    intro name hname
    rw [Database.hasBinding_iff_granted hrow, h.granted]
    exact ⟨.inr rfl, hname⟩

/-- The registry that a start loads holds the rows as new mountpoints. -/
theorem get_syncMountpoints (defaults : MountpointDefaultsConfig) {t : MountPointTable}
    {row : MountPointRow} (hrow : row ∈ t.rows) (henabled : row.isEnabled = true) :
    (syncMountpoints defaults t .new).get row.name = some (row.toMountPoint defaults) := by
  have hperm := List.perm_insertionSort (fun a b : MountPointRow => a.id ≤ b.id) t.rows
  have hnodup : (t.list.map MountPointRow.name).Nodup := (hperm.map _).nodup_iff.mpr t.key_nodup
  refine (Manager.get_foldl_load hnodup fun _ _ => AList.lookup_empty _).mpr (.inr ?_)
  exact ⟨row, hperm.mem_iff.mpr hrow, henabled, rfl, rfl⟩

theorem Populated.startCaster {names : List Bytes} {db : Database} (h : Populated bc names db)
    (auth : Bool) {defaults : MountpointDefaultsConfig} (hqueue : FitsChan defaults.writeQueue)
    (maxClients : ℤ) (salt : Bytes) :
    ∃ caster : ConnHandler,
      startCaster bc false (config auth) defaults maxClients salt db = .ok caster ∧
        caster.acctSvc = db.newService ∧ caster.cfg = config auth ∧
        caster.Holds names maxClients {} := by
  have hadmin : 0 < db.newService.users.rows.countP (·.role == roleAdmin) := h.countP_admin
  unfold NtripCaster.startCaster Service.ensureAdmin
  rw [if_neg Bool.false_ne_true, if_pos hadmin]
  refine ⟨_, rfl, rfl, rfl, rfl, fun name hname => ?_⟩
  obtain ⟨row, hrow, rfl⟩ := (h.mounts name).mp hname
  obtain ⟨henabled, hnone, hlimit⟩ := h.plain row hrow
  refine ⟨_, get_syncMountpoints defaults hrow henabled, rfl, ?_, hlimit, ?_⟩
  · show FitsChan (row.queue defaults)
    rw [MountPointRow.queue, hnone]
    exact hqueue
  · exact iff_of_false Bool.false_ne_true List.not_mem_nil

/-- **The quick start works**: for a prefix that is a word without a comma, `main` sets up a
database in which nobody but the two stations is bound to the mountpoints, the printed commands name
these, and the caster starts on it. Stations that these commands start, and that connect one at a
time and stay, are let in exactly as the counter says, whatever the order in which they come and
however their requests are cut, and their answers tell them so. If the base stations come first,
everybody is let in up to `-max-clients` rovers. The configured queue is one that can be made. -/
theorem quick_start (hbc : bc.Complete)
    (hadmin : ∀ salt, bc.generateFromPassword salt (ascii "admin") ≠ none)
    (hpassword : ∀ salt, bc.generateFromPassword salt password ≠ none) (hpre : pre ≠ [])
    (hspace : NoSpace pre) (hcomma : 0x2C ∉ pre) (hnum : 1 ≤ numMounts) (auth foreignKeys : Bool)
    (salt : ℕ → Bytes) (salt' : Bytes) (defaults : MountpointDefaultsConfig)
    (hqueue : FitsChan defaults.writeQueue) (maxClients : ℤ) :
    (simbaseFlags numMounts pre auth).mountList = mountNames numMounts pre ∧
      (simroverFlags numMounts pre auth).mountList = mountNames numMounts pre ∧
      ∃ db caster, main bc foreignKeys salt numMounts pre = .ok db ∧
        db.granted = {baseUser, roverUser} ×ˢ {name | name ∈ mountNames numMounts pre} ∧
        startCaster bc false (config auth) defaults maxClients salt' db = .ok caster ∧
        (∀ arrivals : List Arrival, (∀ a ∈ arrivals, Dials numMounts pre auth a) →
          ∃ caster' outcomes,
            caster.handleAll bc (arrivals.map fun a => (a.env, a.conn)) =
              some (caster', outcomes) ∧
            List.zipWith Station.isIn (arrivals.map Arrival.station) outcomes =
              Occupancy.run maxClients {} (arrivals.map Arrival.station) ∧
            outcomes.map (fun o => contains o.response (ascii "200")) =
              Occupancy.run maxClients {} (arrivals.map Arrival.station)) ∧
        ∀ rovers : List Bytes, (∀ mount ∈ rovers, mount ∈ mountNames numMounts pre) →
          (rovers.length : ℤ) ≤ maxClients →
          ∀ b ∈ Occupancy.run maxClients {}
            ((mountNames numMounts pre).map .base ++ rovers.map .rover), b = true := by
  obtain ⟨db, hmain, hpopulated⟩ :=
    main_ok hadmin hpassword foreignKeys salt numMounts pre
  obtain ⟨caster, hstart, hsvc, hcfg, hholds⟩ :=
    hpopulated.startCaster auth hqueue maxClients salt'
  refine ⟨buildMountList_simbase auth hpre, buildMountList_simrover auth hpre hspace hcomma hnum,
    db, caster, hmain, hpopulated.granted, hstart, fun arrivals hdials => ?_, ?_⟩
  · have hstaffed : caster.acctSvc.Staffed bc (mountNames numMounts pre) :=
      hsvc ▸ hpopulated.staffed hbc
    exact handleAll_eq hpre hspace hcomma hnum arrivals hstaffed hcfg hholds hdials
  · intro rovers hrovers hroom
    exact Occupancy.run_script (mountNames_nodup numMounts pre) hrovers hroom

/-- A station of the mountpoint `BENCH_0` whose request arrives byte for byte. -/
def benchArrival (station : Station) (request : Bytes) : Arrival :=
  ⟨station, quietEnv, request.map fun b => [b]⟩

/-- A rover that comes before its base station, the base station, and the rover again. -/
def earlyRover : List Arrival :=
  let rover := benchArrival (.rover (ascii "BENCH_0"))
    (sendRoverRequest (ascii "BENCH_0") roverUser password)
  let base := benchArrival (.base (ascii "BENCH_0"))
    ((sendSourceRequest 2 (ascii "BENCH_0") baseUser password).toOption.getD [])
  [rover, base, rover]

theorem earlyRover_dials : ∀ a ∈ earlyRover, Dials 2 (ascii "BENCH") true a := by
  have hne : ascii "BENCH_0" ≠ [] := by decide
  have hspace : NoSpace (ascii "BENCH_0") := by decide +kernel
  have hbaseUser : 58 ∉ baseUser := by decide
  have hroverUser : 58 ∉ roverUser := by decide
  have hcut : ∀ request : Bytes, (request.map fun b => [b]).flatten = request ++ [] := by
    intro request
    rw [← List.flatMap_def, List.flatMap_singleton', List.append_nil]
  have hrover : Dials 2 (ascii "BENCH") true (benchArrival (.rover (ascii "BENCH_0"))
      (sendRoverRequest (ascii "BENCH_0") roverUser password)) := by
    have hparsed := parsedAs_sendRoverRequest hne hspace hroverUser password
    refine ⟨fun _ => rfl, ?_, by decide +kernel, [], hcut _⟩
    have harrives := hparsed.2 []
    rwa [List.append_nil] at harrives
  have hbase : Dials 2 (ascii "BENCH") true (benchArrival (.base (ascii "BENCH_0"))
      ((sendSourceRequest 2 (ascii "BENCH_0") baseUser password).toOption.getD [])) := by
    obtain ⟨bytes, hbytes, hparsed⟩ := parsedAs_sendSourceRequest hspace hbaseUser password
    rw [hbytes]
    refine ⟨fun _ => rfl, ?_, by decide +kernel, bytes, [], hbytes, hcut _⟩
    have harrives := hparsed.2 []
    rwa [List.append_nil] at harrives
  exact List.forall_mem_cons.mpr ⟨hrover, List.forall_mem_cons.mpr ⟨hbase,
    List.forall_mem_singleton.mpr hrover⟩⟩

theorem quick_start_earlyRover :
    ∃ db caster caster' outcomes,
      main plainBcrypt true (fun _ => []) 2 (ascii "BENCH") = .ok db ∧
        startCaster plainBcrypt false (config true) ⟨128, 5000000000⟩ 10000 [] db = .ok caster ∧
        caster.handleAll plainBcrypt (earlyRover.map fun a => (a.env, a.conn)) =
          some (caster', outcomes) ∧
        List.zipWith Station.isIn (earlyRover.map Arrival.station) outcomes =
          [false, true, true] := by
  have hhash : ∀ password : Bytes, password.length ≤ 72 →
      ∀ salt, plainBcrypt.generateFromPassword salt password ≠ none := by
    intro password hlen salt
    simp [plainBcrypt, hlen]
  have hpre : ascii "BENCH" ≠ [] := by decide
  have hspace : NoSpace (ascii "BENCH") := by decide +kernel
  have hnum : 1 ≤ 2 := by decide
  obtain ⟨-, -, db, caster, hmain, -, hstart, hrun, -⟩ := quick_start plainBcrypt_correct.complete
    (hhash (ascii "admin") (by decide)) (hhash password (by decide)) hpre hspace (by decide) hnum
    true true (fun _ => []) [] ⟨128, 5000000000⟩ (by decide) 10000
  obtain ⟨caster', outcomes, hall, hin, -⟩ := hrun earlyRover earlyRover_dials
  exact ⟨db, caster, caster', outcomes, hmain, hstart, hall, hin.trans (by decide)⟩

end Testenv

end NtripCaster
