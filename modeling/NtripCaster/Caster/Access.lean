import NtripCaster.Caster.Publishing

/-!
# The table of roles and bindings

What a user may do on a mountpoint is documented beside `Binding` in `internal/account/user.go`: a
base user with a binding may publish, a rover user with a binding may subscribe, an administrator
needs no binding. The three handlers of `internal/caster/connection.go` decide it each on its
own, and the two that publish ask administrators for a binding too.

## Main definitions

* `ConnHandler.Authenticates`: the user behind the credentials of a request
* `Service.Bound`, `ConnHandler.Entitled`: the documented table
* `ConnHandler.AcceptsCredentials`: the request is not refused for its credentials
* `ConnHandler.SlotFree`, `ConnHandler.Registers`

## Main results

* `ConnHandler.serve_cases`: what each handler asks of a user
* `access_table_iff`: the table is followed unless an administrator without a binding publishes
* `access_table_not_followed`: that administrator
-/

namespace NtripCaster

namespace Service

variable {s : Service}

/-- `u` has a binding to a mountpoint of the name. -/
def Bound (s : Service) (u : User) (m : Bytes) : Prop :=
  ∃ b ∈ s.bindings, b.userID = u.id ∧ ∃ row ∈ s.mountpoints, row.id = b.mountPointID ∧ row.name = m

theorem countBindings_pos {u : User} {m : Bytes} :
    0 < s.countBindings u.id m ↔ s.Bound u m := by
  unfold countBindings Bound
  rw [List.length_pos_iff_exists_mem]
  simp only [List.mem_flatMap, List.mem_filter, Bool.and_eq_true, beq_iff_eq]
  constructor
  · rintro ⟨row, b, hb, hrow, ⟨hid, huser⟩, hname⟩
    exact ⟨b, hb, huser, row, hrow, hid.symm, hname⟩
  · rintro ⟨b, hb, huser, row, hrow, hid, hname⟩
    exact ⟨row, b, hb, hrow, ⟨hid.symm, huser⟩, hname⟩

theorem hasBinding_eq {fails : Query → Bool} (hdb : ∀ q, fails q = false) (userID : ℤ)
    (m : Bytes) : s.hasBinding fails userID m = .ok (decide (0 < s.countBindings userID m)) := by
  rw [hasBinding, hdb, if_neg Bool.false_ne_true]

end Service

namespace ConnHandler

variable (bc : Bcrypt) (env : Env) (h : ConnHandler) (req : NTRIPRequest)

/-- The credentials of the request authenticate `u`, an enabled user of the database. -/
def Authenticates (u : User) : Prop :=
  ∃ username password,
    parseBasicAuth (req.header "Authorization") = some (username, password) ∧
    (h.acctSvc.authenticate bc env.fails env.now env.now' username password).2 = .ok (some u) ∧
    h.acctSvc.HasEnabledUser u

/-- The role, apart from `admin`, that a request of its kind is for. -/
def requestRole : Bytes :=
  match req.type with
  | .rover => roleRover
  | _ => roleBase

/-- The documented table: the credentials are those of an administrator, or of a user of the role
who is bound to the mountpoint. -/
def Entitled : Prop :=
  ∃ u, h.Authenticates bc env req u ∧
    (u.role = roleAdmin ∨ u.role = requestRole req ∧ h.acctSvc.Bound u req.mountPoint)

/-- The responses to credentials that are not accepted. -/
def credentialRefusals : List Bytes :=
  [ascii "HTTP/1.1 401 Unauthorized\r\n\r\n", ascii "HTTP/1.1 403 Forbidden\r\n\r\n",
    ascii "ERROR - Bad Password\r\n"]

/-- The request is not refused for its credentials. -/
def AcceptsCredentials : Prop :=
  ∀ response ∈ credentialRefusals, (h.serve bc env req).2 ≠ .closed response

/-- The mountpoint has room for a session of the kind: it is enabled, and has no source for a
base station to displace, or one for a rover to hear and no limit in the way. -/
def SlotFree : Prop :=
  if req.type = .rover then
    ∃ mp, h.mgr.get req.mountPoint = some mp ∧ mp.enabled = true ∧ mp.hasSource = true ∧
      h.globalLimiter.atCapacity = false ∧ FitsChan mp.writeQueue ∧
        ¬ (0 < mp.maxClients ∧ mp.maxClients ≤ mp.clientsByID.len)
  else h.mgr.Publishable req.mountPoint

/-- A handler has ended with the connection registered on the mountpoint of the request. -/
def Registers (r : ConnHandler × Outcome) : Prop :=
  if req.type = .rover then
    ∃ response c mp, r.2 = .rover response req.mountPoint c ∧
      r.1.mgr.get req.mountPoint = some mp ∧ mp.clientsByID.lookup c.id = some c
  else
    ∃ response info mp, r.2 = .source response req.mountPoint info ∧
      r.1.mgr.get req.mountPoint = some mp ∧ mp.source = some info

/-- What the handlers ask of a user: the role and a binding, but no binding of an administrator
who subscribes. -/
def Passes (u : User) : Prop :=
  (u.role = roleAdmin ∨ u.role = requestRole req) ∧
    (req.type = .rover ∧ u.role = roleAdmin ∨ h.acctSvc.Bound u req.mountPoint)

/-- What the handlers do for a user who passes. -/
def register (userID : ℤ) : ConnHandler × Outcome :=
  match req.type with
  | .rover => h.newRover env userID req
  | .sourceRev1 => h.newSource env userID req "ICY 200 OK\r\n\r\n"
  | _ => h.newSource env userID req "HTTP/1.1 200 OK\r\n\r\n"

variable {bc env h req}

/-- One pair of credentials authenticates one user. -/
theorem Authenticates.unique {u u' : User} (hu : h.Authenticates bc env req u)
    (hu' : h.Authenticates bc env req u') : u = u' := by
  obtain ⟨username, password, hparse, hauth, -⟩ := hu
  obtain ⟨username', password', hparse', hauth', -⟩ := hu'
  obtain ⟨rfl, rfl⟩ := Prod.mk.inj (Option.some.inj (hparse.symm.trans hparse'))
  exact Option.some.inj (Except.ok.inj (hauth.symm.trans hauth'))

/-- `authenticateBasic` passes the user behind the credentials if the role is right. -/
theorem authenticateBasic_eq_some_iff (hcur : h.acctSvc.CacheCurrent bc) {role : Bytes}
    {u : User} : (h.authenticateBasic bc env req role).2 = .ok (some u) ↔
      h.Authenticates bc env req u ∧ (u.role = roleAdmin ∨ u.role = role) := by
  constructor
  · intro hu
    obtain ⟨username, password, hparse, hauth, hrole⟩ := authenticateBasic_eq_some hu
    exact ⟨⟨username, password, hparse, hauth, hcur.hasEnabledUser hauth⟩, hrole.symm⟩
  · rintro ⟨⟨username, password, hparse, hauth, -⟩, hrole⟩
    have hheader : req.header "Authorization" ≠ [] := by
      intro hnil
      rw [hnil] at hparse
      cases hparse
    unfold authenticateBasic
    rw [if_neg hheader, hparse]
    dsimp only
    split
    next svc e heq => rw [heq] at hauth; cases hauth
    next svc heq => rw [heq] at hauth; cases hauth
    next svc v heq =>
      rw [heq] at hauth
      obtain rfl := Option.some.inj (Except.ok.inj hauth)
      split_ifs with hadmin hother
      · rfl
      · exact absurd (hrole.resolve_left hadmin) hother
      · rfl

/-- Authentication leaves the bindings as they are, so the handlers see those of the table. -/
theorem hasBinding_authenticated (hdb : ∀ q, env.fails q = false) {role : Bytes} {svc : Service}
    {r : Except AccountError (Option User)}
    (hbasic : h.authenticateBasic bc env req role = (svc, r)) (u : User) :
    svc.hasBinding env.fails u.id req.mountPoint =
      .ok (decide (0 < h.acctSvc.countBindings u.id req.mountPoint)) := by
  have hsame : (h.authenticateBasic bc env req role).1.hasBinding env.fails u.id req.mountPoint =
      h.acctSvc.hasBinding env.fails u.id req.mountPoint :=
    h.hasBinding_authenticateBasic req role env.fails u.id req.mountPoint
  rw [hbasic] at hsame
  exact hsame.trans (Service.hasBinding_eq hdb _ _)

/-! ## What each handler asks -/

/-- How a request of a user ends: registered for a user who passes, or refused because nobody
who passes is behind the credentials. -/
inductive Decided (bc : Bcrypt) (env : Env) (h : ConnHandler) (req : NTRIPRequest) :
    ConnHandler × Outcome → Prop
  | passes {u : User} (svc : Service) (hu : h.Authenticates bc env req u) (hp : h.Passes req u) :
    Decided bc env h req (({ h with acctSvc := svc } : ConnHandler).register env req u.id)
  | refused (h' : ConnHandler) {response : Bytes} (hr : response ∈ credentialRefusals)
      (hnone : ∀ u, h.Authenticates bc env req u → ¬ h.Passes req u) :
    Decided bc env h req (h', .closed response)

/-- Credentials that `authenticateBasic` does not pass are those of nobody who passes. -/
theorem not_passes_of_basic (hcur : h.acctSvc.CacheCurrent bc) {svc : Service}
    {r : Except AccountError (Option User)}
    (hbasic : h.authenticateBasic bc env req (requestRole req) = (svc, r))
    (hr : ∀ u, r = .ok (some u) → False) (u : User) (hu : h.Authenticates bc env req u) :
    ¬ h.Passes req u := by
  intro hp
  refine hr u ?_
  have := (authenticateBasic_eq_some_iff hcur).mpr ⟨hu, hp.1⟩
  rwa [hbasic] at this

/-- If the user behind the credentials does not pass, nobody behind them does. -/
theorem not_passes_of_user {u : User} (hu : h.Authenticates bc env req u)
    (hnot : ¬ h.Passes req u) (v : User) (hv : h.Authenticates bc env req v) :
    ¬ h.Passes req v :=
  hv.unique hu ▸ hnot

/-- A rover, check by check. -/
theorem handleRover_decided (hcur : h.acctSvc.CacheCurrent bc) (hdb : ∀ q, env.fails q = false)
    (hauth : h.cfg.auth.enabled = true) (hrover : h.cfg.auth.ntripRoverAuth = ascii "basic")
    (htype : req.type = .rover) : Decided bc env h req (h.handleRover bc env req) := by
  have hrole : requestRole req = roleRover := by rw [requestRole, htype]
  unfold handleRover
  rw [if_pos ⟨hauth, hrover⟩]
  split
  next svc u hbasic =>
    obtain ⟨hu, hur⟩ := (authenticateBasic_eq_some_iff hcur).mp (congrArg Prod.snd hbasic)
    have hreg : ({ h with acctSvc := svc } : ConnHandler).register env req u.id =
        ({ h with acctSvc := svc } : ConnHandler).newRover env u.id req := by
      rw [register, htype]
    dsimp only
    split_ifs with hadmin
    · exact hreg ▸ .passes svc hu ⟨.inl hadmin, .inl ⟨htype, hadmin⟩⟩
    · rw [hasBinding_authenticated hdb hbasic]
      by_cases hb : 0 < h.acctSvc.countBindings u.id req.mountPoint
      · rw [decide_eq_true hb]
        exact hreg ▸ .passes svc hu ⟨hrole ▸ hur, .inr (Service.countBindings_pos.mp hb)⟩
      · rw [decide_eq_false hb]
        refine .refused _ (by simp [credentialRefusals]) (not_passes_of_user hu ?_)
        rintro ⟨-, ⟨-, h'⟩ | h'⟩
        · exact hadmin h'
        · exact hb (Service.countBindings_pos.mpr h')
  next svc r hr hbasic =>
    exact .refused _ (by simp [credentialRefusals])
      (not_passes_of_basic hcur (hrole ▸ hbasic) hr)

/-- To publish, everybody needs a binding. -/
theorem passes_source_iff (htype : req.type ≠ .rover) {u : User} :
    h.Passes req u ↔ (u.role = roleAdmin ∨ u.role = requestRole req) ∧
      0 < h.acctSvc.countBindings u.id req.mountPoint := by
  unfold Passes
  rw [Service.countBindings_pos]
  simp [htype]

/-- A base station of the first revision that sends a header of the second, check by check. -/
theorem handleSourceRev1_decided (hcur : h.acctSvc.CacheCurrent bc)
    (hdb : ∀ q, env.fails q = false) (hauth : h.cfg.auth.enabled = true)
    (hmode : h.cfg.auth.ntripSourceAuth = ascii "user_binding") (htype : req.type = .sourceRev1)
    (hheader : req.header "Authorization" ≠ []) :
    Decided bc env h req (h.handleSourceRev1 bc env req) := by
  have hrole : requestRole req = roleBase := by rw [requestRole, htype]
  have hsource : req.type ≠ .rover := by simp [htype]
  unfold handleSourceRev1 authenticateSource
  rw [if_pos hauth, if_pos hmode, if_pos hheader]
  cases hbasic : h.authenticateBasic bc env req roleBase with
  | mk svc r =>
    have hnone := not_passes_of_basic (r := r) hcur (hrole ▸ hbasic)
    match r with
    | .error e => exact .refused _ (by simp [credentialRefusals]) (hnone nofun)
    | .ok none => exact .refused _ (by simp [credentialRefusals]) (hnone nofun)
    | .ok (some u) =>
      obtain ⟨hu, hur⟩ := (authenticateBasic_eq_some_iff hcur).mp (congrArg Prod.snd hbasic)
      have hreg : ({ h with acctSvc := svc } : ConnHandler).register env req u.id =
          ({ h with acctSvc := svc } : ConnHandler).newSource env u.id req
            "ICY 200 OK\r\n\r\n" := by
        rw [register, htype]
      dsimp only
      rw [hasBinding_authenticated hdb hbasic]
      by_cases hb : 0 < h.acctSvc.countBindings u.id req.mountPoint
      · rw [decide_eq_true hb]
        show Decided bc env h req (newSource env { h with acctSvc := svc } u.id req _)
        exact hreg ▸ .passes svc hu ((passes_source_iff hsource).mpr ⟨hrole ▸ hur, hb⟩)
      · rw [decide_eq_false hb]
        refine .refused _ (by simp [credentialRefusals]) (not_passes_of_user hu fun hp => ?_)
        exact hb ((passes_source_iff hsource).mp hp).2

/-- A base station of the second revision, check by check. -/
theorem handleSourceRev2_decided (hcur : h.acctSvc.CacheCurrent bc)
    (hdb : ∀ q, env.fails q = false) (hauth : h.cfg.auth.enabled = true)
    (hmode : h.cfg.auth.ntripSourceAuth = ascii "user_binding") (htype : req.type = .sourceRev2) :
    Decided bc env h req (h.handleSourceRev2 bc env req) := by
  have hrole : requestRole req = roleBase := by rw [requestRole, htype]
  have hsource : req.type ≠ .rover := by simp [htype]
  unfold handleSourceRev2
  rw [if_pos hauth]
  split
  next svc u hbasic =>
    obtain ⟨hu, hur⟩ := (authenticateBasic_eq_some_iff hcur).mp (congrArg Prod.snd hbasic)
    have hreg : ({ h with acctSvc := svc } : ConnHandler).register env req u.id =
        ({ h with acctSvc := svc } : ConnHandler).newSource env u.id req
          "HTTP/1.1 200 OK\r\n\r\n" := by
      rw [register, htype]
    dsimp only
    rw [if_pos hmode, hasBinding_authenticated hdb hbasic]
    by_cases hb : 0 < h.acctSvc.countBindings u.id req.mountPoint
    · rw [decide_eq_true hb]
      exact hreg ▸ .passes svc hu ((passes_source_iff hsource).mpr ⟨hrole ▸ hur, hb⟩)
    · rw [decide_eq_false hb]
      refine .refused _ (by simp [credentialRefusals]) (not_passes_of_user hu fun hp => ?_)
      exact hb ((passes_source_iff hsource).mp hp).2
  next svc r hr hbasic =>
    exact .refused _ (by simp [credentialRefusals])
      (not_passes_of_basic hcur (hrole ▸ hbasic) hr)

/-- The kinds of request that credentials are checked for. -/
def AccessRequest (req : NTRIPRequest) : Prop :=
  req.type = .rover ∨ req.type = .sourceRev1 ∨ req.type = .sourceRev2

theorem serve_decided (hcur : h.acctSvc.CacheCurrent bc) (hdb : ∀ q, env.fails q = false)
    (hauth : h.cfg.auth.enabled = true)
    (hmode : h.cfg.auth.ntripSourceAuth = ascii "user_binding")
    (hrover : h.cfg.auth.ntripRoverAuth = ascii "basic") (htype : AccessRequest req)
    (hheader : req.header "Authorization" ≠ []) : Decided bc env h req (h.serve bc env req) := by
  rcases htype with htype | htype | htype
  · rw [serve, htype]
    exact handleRover_decided hcur hdb hauth hrover htype
  · rw [serve, htype]
    exact handleSourceRev1_decided hcur hdb hauth hmode htype hheader
  · rw [serve, htype]
    exact handleSourceRev2_decided hcur hdb hauth hmode htype

/-! ## Registration -/

/-- The responses where there is no slot. -/
def slotRefusals : List Bytes :=
  [ascii "HTTP/1.1 404 Not Found\r\n\r\n", ascii "HTTP/1.1 409 Conflict\r\n\r\n",
    ascii "HTTP/1.1 503 Service Unavailable\r\n\r\n",
    ascii "HTTP/1.1 503 Service Unavailable\r\nContent-Type: text/plain\r\n\r\nServer at capacity",
    ascii "HTTP/1.1 503 Service Unavailable\r\nContent-Type: text/plain\r\n\r\nMountpoint at capacity"]

theorem not_mem_credentialRefusals {response : Bytes} (h : response ∈ slotRefusals) :
    response ∉ credentialRefusals := by
  have hall : (slotRefusals.all fun r => !credentialRefusals.contains r) = true := by decide
  simpa using List.all_eq_true.mp hall response h

theorem newSource_closed {userID : ℤ} {text : String} {response : Bytes}
    (hr : (h.newSource env userID req text).2 = .closed response) : response ∈ slotRefusals := by
  unfold newSource at hr
  split at hr
  · cases hr
    simp [slotRefusals]
  · split_ifs at hr
    · cases hr
      simp [slotRefusals]
    · dsimp only at hr
      split at hr
      · cases hr
        simp [slotRefusals]
      · cases hr

theorem newRover_closed {userID : ℤ} {response : Bytes}
    (hr : (h.newRover env userID req).2 = .closed response) : response ∈ slotRefusals := by
  unfold newRover at hr
  split at hr
  · cases hr
    simp [slotRefusals]
  · dsimp only at hr
    split_ifs at hr
    · cases hr
      simp [slotRefusals]
    · cases hr
      simp [slotRefusals]
    · cases hr
      simp [slotRefusals]
    · split at hr
      · cases hr
        simp [slotRefusals]
      · cases hr

theorem register_closed {userID : ℤ} {response : Bytes}
    (hr : (h.register env req userID).2 = .closed response) : response ∈ slotRefusals := by
  unfold register at hr
  split at hr
  · exact newRover_closed hr
  · exact newSource_closed hr
  · exact newSource_closed hr

/-- A slot that is free for a rover is taken. -/
theorem newRover_registers (userID : ℤ) (htype : req.type = .rover) (hslot : h.SlotFree req) :
    Registers req (h.newRover env userID req) := by
  unfold SlotFree at hslot
  unfold Registers
  rw [if_pos htype] at hslot ⊢
  obtain ⟨mp, hget, hen, hsrc, hcap, hqueue, hlimit⟩ := hslot
  unfold newRover
  rw [hget]
  simp only [hen, hsrc, hcap, Bool.not_true, Bool.false_eq_true, if_false, not_not.mpr hqueue,
    MountPoint.addClient, if_neg hlimit]
  exact ⟨_, _, _, rfl, Manager.get_set_self _ _ _, AList.lookup_insert _⟩

/-- A slot that is free is taken. -/
theorem register_registers (userID : ℤ) (hslot : h.SlotFree req) :
    Registers req (h.register env req userID) := by
  by_cases htype : req.type = .rover
  · have hreg : h.register env req userID = h.newRover env userID req := by rw [register, htype]
    exact hreg ▸ newRover_registers userID htype hslot
  · unfold SlotFree at hslot
    unfold Registers
    rw [if_neg htype] at hslot ⊢
    unfold register
    split
    · contradiction
    · exact newSource_registers hslot
    · exact newSource_registers hslot

/-- What was refused is not registered. -/
theorem not_registers_closed {h' : ConnHandler} {response : Bytes} :
    ¬ Registers req (h', .closed response) := by
  unfold Registers
  split_ifs
  · rintro ⟨_, _, _, hr, -⟩
    cases hr
  · rintro ⟨_, _, _, hr, -⟩
    cases hr

/-! ## The handlers against the table -/

/-- Credentials are accepted exactly if the user behind them passes. -/
theorem acceptsCredentials_iff (hd : Decided bc env h req (h.serve bc env req)) :
    h.AcceptsCredentials bc env req ↔ ∃ u, h.Authenticates bc env req u ∧ h.Passes req u := by
  unfold AcceptsCredentials
  generalize h.serve bc env req = r at hd
  cases hd with
  | passes svc hu hp =>
    refine iff_of_true (fun response hr hclosed => ?_) ⟨_, hu, hp⟩
    exact not_mem_credentialRefusals (register_closed hclosed) hr
  | refused h' hr hnone =>
    refine iff_of_false (fun hall => hall _ hr rfl) ?_
    rintro ⟨u, hu, hp⟩
    exact hnone u hu hp

/-- With a free slot, that is when the connection is registered. -/
theorem acceptsCredentials_iff_registers (hd : Decided bc env h req (h.serve bc env req))
    (hslot : h.SlotFree req) :
    h.AcceptsCredentials bc env req ↔ Registers req (h.serve bc env req) := by
  unfold AcceptsCredentials
  generalize h.serve bc env req = r at hd
  cases hd with
  | passes svc hu hp =>
    refine iff_of_true (fun response hr hclosed => ?_) (register_registers _ hslot)
    exact not_mem_credentialRefusals (register_closed hclosed) hr
  | refused h' hr hnone => exact iff_of_false (fun hall => hall _ hr rfl) not_registers_closed

/-- To subscribe, a user passes exactly as the table says. -/
theorem passes_rover_iff (htype : req.type = .rover) {u : User} :
    h.Passes req u ↔
      u.role = roleAdmin ∨ u.role = requestRole req ∧ h.acctSvc.Bound u req.mountPoint := by
  unfold Passes
  constructor
  · rintro ⟨hrole, ⟨-, hadmin⟩ | hb⟩
    · exact .inl hadmin
    · exact hrole.imp_right fun hr => ⟨hr, hb⟩
  · rintro (hadmin | ⟨hr, hb⟩)
    · exact ⟨.inl hadmin, .inl ⟨htype, hadmin⟩⟩
    · exact ⟨.inr hr, .inr hb⟩

/-- The handlers and the table differ on administrators who publish without a binding. -/
theorem passes_iff_entitled :
    ((∃ u, h.Authenticates bc env req u ∧ h.Passes req u) ↔ h.Entitled bc env req) ↔
      req.type = .rover ∨ ¬ ∃ u, h.Authenticates bc env req u ∧ u.role = roleAdmin ∧
        ¬ h.acctSvc.Bound u req.mountPoint := by
  by_cases htype : req.type = .rover
  · refine iff_of_true ?_ (.inl htype)
    simp only [passes_rover_iff htype]
    rfl
  · have hpasses : ∀ u, h.Passes req u ↔
        (u.role = roleAdmin ∨ u.role = requestRole req) ∧ h.acctSvc.Bound u req.mountPoint := by
      intro u
      rw [passes_source_iff htype, Service.countBindings_pos]
    simp only [hpasses, htype, false_or]
    constructor
    · -- an administrator without a binding is entitled, and does not pass
      rintro hiff ⟨u, hu, hadmin, hunbound⟩
      obtain ⟨v, hv, -, hbound⟩ := hiff.mpr ⟨u, hu, .inl hadmin⟩
      exact hunbound (hu.unique hv ▸ hbound)
    · intro hnone
      constructor
      · rintro ⟨u, hu, hrole, hbound⟩
        exact ⟨u, hu, hrole.imp_right fun hr => ⟨hr, hbound⟩⟩
      · rintro ⟨u, hu, hadmin | ⟨hr, hbound⟩⟩
        · refine ⟨u, hu, .inl hadmin, ?_⟩
          by_contra hunbound
          exact hnone ⟨u, hu, hadmin, hunbound⟩
        · exact ⟨u, hu, .inr hr, hbound⟩

end ConnHandler

open ConnHandler

/-- **The handlers follow the table of roles and bindings unless an administrator without a
binding publishes**: with `user_binding` for sources and `basic` for rovers, a request with Basic
credentials is accepted exactly if the table entitles it, if and only if it is a rover's or its
credentials are not those of such an administrator. The user behind credentials is the one that
`Authenticate` returns. With a free slot, accepted is registered. -/
theorem access_table_iff {bc : Bcrypt} {cfg : Config} (mgr : Manager) {acctSvc : Service}
    (limiter : GlobalLimiter) (hacct : (accountSystem bc).Reachable acctSvc)
    (hauth : cfg.auth.enabled = true) (hsource : cfg.auth.ntripSourceAuth = ascii "user_binding")
    (hrover : cfg.auth.ntripRoverAuth = ascii "basic") {env : Env}
    (hdb : ∀ q, env.fails q = false) {req : NTRIPRequest} (htype : AccessRequest req)
    (hcred : (parseBasicAuth (req.header "Authorization")).isSome = true) :
    ((AcceptsCredentials bc env ⟨cfg, mgr, acctSvc, limiter⟩ req ↔
        Entitled bc env ⟨cfg, mgr, acctSvc, limiter⟩ req) ↔
      req.type = .rover ∨ ¬ ∃ u, Authenticates bc env ⟨cfg, mgr, acctSvc, limiter⟩ req u ∧
        u.role = roleAdmin ∧ ¬ acctSvc.Bound u req.mountPoint) ∧
    (SlotFree ⟨cfg, mgr, acctSvc, limiter⟩ req →
      (AcceptsCredentials bc env ⟨cfg, mgr, acctSvc, limiter⟩ req ↔
        Registers req (serve bc env ⟨cfg, mgr, acctSvc, limiter⟩ req))) := by
  have hheader : req.header "Authorization" ≠ [] := by
    intro hnil
    rw [hnil] at hcred
    cases hcred
  have hd := serve_decided (h := ⟨cfg, mgr, acctSvc, limiter⟩)
    (accountSystem_cacheCurrent hacct) hdb hauth hsource hrover htype hheader
  refine ⟨?_, acceptsCredentials_iff_registers hd⟩
  rw [acceptsCredentials_iff hd]
  exact passes_iff_entitled

/-- An administrator `root` with the password `pw`, and no binding. -/
def rootService : Service :=
  (Service.new .empty [] []).call plainBcrypt
    (.createUser [] (ascii "root") (ascii "pw") (ascii "admin"))

theorem rootService_reachable : (accountSystem plainBcrypt).Reachable rootService :=
  .of_run [.createUser [] (ascii "root") (ascii "pw") (ascii "admin")] ⟨_, _, _, rfl⟩ rfl

/-- `POST /M` with the credentials of `root`. -/
def rootPost : NTRIPRequest :=
  { type := .sourceRev2
    mountPoint := ascii "M"
    headers := (∅ : GoMap Bytes Bytes).insert (ascii "Authorization") (ascii "Basic cm9vdDpwdw==") }

theorem access_table_iff_rootPost :
    ((AcceptsCredentials plainBcrypt quietEnv
          ⟨defaultConfig, oneMountpoint, rootService, ⟨0, 5000⟩⟩ rootPost ↔
        Entitled plainBcrypt quietEnv ⟨defaultConfig, oneMountpoint, rootService, ⟨0, 5000⟩⟩
          rootPost) ↔
      rootPost.type = .rover ∨ ¬ ∃ u, Authenticates plainBcrypt quietEnv
        ⟨defaultConfig, oneMountpoint, rootService, ⟨0, 5000⟩⟩ rootPost u ∧
          u.role = roleAdmin ∧ ¬ rootService.Bound u rootPost.mountPoint) ∧
    (SlotFree ⟨defaultConfig, oneMountpoint, rootService, ⟨0, 5000⟩⟩ rootPost →
      (AcceptsCredentials plainBcrypt quietEnv
          ⟨defaultConfig, oneMountpoint, rootService, ⟨0, 5000⟩⟩ rootPost ↔
        Registers rootPost (serve plainBcrypt quietEnv
          ⟨defaultConfig, oneMountpoint, rootService, ⟨0, 5000⟩⟩ rootPost))) :=
  access_table_iff oneMountpoint ⟨0, 5000⟩ rootService_reachable rfl rfl rfl (fun _ => rfl)
    (.inr (.inr rfl)) (by decide)

/-- `POST /M` by an administrator without a binding is answered `403 Forbidden`, with the source
slot of `M` free. -/
theorem access_table_not_followed :
    ¬ ∀ (bc : Bcrypt) (cfg : Config) (mgr : Manager) (acctSvc : Service)
        (limiter : GlobalLimiter), (accountSystem bc).Reachable acctSvc →
      cfg.auth.enabled = true → cfg.auth.ntripSourceAuth = ascii "user_binding" →
      cfg.auth.ntripRoverAuth = ascii "basic" → ∀ env : Env, (∀ q, env.fails q = false) →
      ∀ req : NTRIPRequest, AccessRequest req →
        (parseBasicAuth (req.header "Authorization")).isSome = true →
        SlotFree ⟨cfg, mgr, acctSvc, limiter⟩ req →
        (Registers req (serve bc env ⟨cfg, mgr, acctSvc, limiter⟩ req) ↔
          Entitled bc env ⟨cfg, mgr, acctSvc, limiter⟩ req) := by
  intro hall
  have hiff := hall plainBcrypt defaultConfig oneMountpoint rootService ⟨0, 5000⟩
    rootService_reachable rfl rfl rfl quietEnv (fun _ => rfl) rootPost (.inr (.inr rfl))
    (by decide) ⟨_, rfl, rfl, rfl⟩
  have hclosed : (serve plainBcrypt quietEnv
      ⟨defaultConfig, oneMountpoint, rootService, ⟨0, 5000⟩⟩ rootPost).2 =
        .closed (ascii "HTTP/1.1 403 Forbidden\r\n\r\n") := by decide
  obtain ⟨_, _, _, hsource, -⟩ := hiff.mpr ⟨⟨1, ascii "root", ascii "pw", ascii "admin", true⟩,
    ⟨ascii "root", ascii "pw", by decide, by decide, rfl,
      ⟨1, ascii "root", ascii "pw", ascii "admin", 1⟩, .head _, rfl⟩, .inl rfl⟩
  rw [hclosed] at hsource
  cases hsource

end NtripCaster
