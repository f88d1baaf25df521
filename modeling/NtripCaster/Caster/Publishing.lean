import NtripCaster.Account.AuthCache
import NtripCaster.Caster.Connection

/-!
# Who may publish

With authentication on, a connection should become the source of a mountpoint only with
credentials: a user of the role base or admin, bound to the mountpoint where bindings are in
force, or the secret of the mountpoint. `authenticateSource` checks neither unless the mode is
`user_binding`.

## Main definitions

* `ConnHandler.RegistersSource`: serving a request makes the connection the source of `m`
* `ConnHandler.Credentialed`: the request carries credentials for publishing

## Main results

* `publishing_credentialed_iff`: publishing takes credentials in the mode `user_binding`, for
  `POST`, and where there is no source slot to take; and only there
* `publishing_not_credentialed`: a `SOURCE` request in the mode `secret`
-/

namespace NtripCaster

namespace ConnHandler

/-- Serving the request makes its connection the source of `m`. -/
def RegistersSource (bc : Bcrypt) (env : Env) (h : ConnHandler) (req : NTRIPRequest)
    (m : Bytes) : Prop :=
  ∃ response info mp, (h.serve bc env req).2 = .source response m info ∧
    (h.serve bc env req).1.mgr.get m = some mp ∧ mp.source = some info

/-- The request carries Basic credentials of an enabled user of the role base or admin, bound to
the mountpoint in the mode `user_binding`. -/
def HasUserCredentials (bc : Bcrypt) (env : Env) (h : ConnHandler) (req : NTRIPRequest) : Prop :=
  ∃ username password user,
    parseBasicAuth (req.header "Authorization") = some (username, password) ∧
    (h.acctSvc.authenticate bc env.fails env.now env.now' username password).2 =
      .ok (some user) ∧
    h.acctSvc.HasEnabledUser user ∧ (user.role = roleBase ∨ user.role = roleAdmin) ∧
    (h.cfg.auth.ntripSourceAuth = ascii "user_binding" →
      h.acctSvc.hasBinding env.fails user.id req.mountPoint = .ok true)

/-- The password field of a `SOURCE` request is the secret of the mountpoint. -/
def HasMountPointSecret (bc : Bcrypt) (env : Env) (h : ConnHandler) (req : NTRIPRequest) : Prop :=
  req.type = .sourceRev1 ∧
    h.acctSvc.verifyMountPointSourceSecret bc env.fails req.mountPoint req.password = .ok true

/-- The request carries credentials for publishing. -/
def Credentialed (bc : Bcrypt) (env : Env) (h : ConnHandler) (req : NTRIPRequest) : Prop :=
  h.HasUserCredentials bc env req ∨ h.HasMountPointSecret bc env req

variable {bc : Bcrypt} {env : Env} {h : ConnHandler} {req : NTRIPRequest}

/-- Where the source slot can be taken, `newSource` makes the connection the source. -/
theorem newSource_registers {userID : ℤ} {response : String}
    (hpub : h.mgr.Publishable req.mountPoint) :
    ∃ r info mp, (h.newSource env userID req response).2 = .source r req.mountPoint info ∧
      (h.newSource env userID req response).1.mgr.get req.mountPoint = some mp ∧
        mp.source = some info := by
  rcases h.newSource_cases env userID req response with ⟨mp, -, -, -, heq⟩ | ⟨hnot, -⟩
  · rw [heq]
    exact ⟨_, _, _, rfl, h.mgr.get_set_self _ _, rfl⟩
  · exact absurd hpub hnot

/-- It does so for the requested mountpoint only, and only where the slot can be taken. -/
theorem publishable_of_newSource {userID : ℤ} {response : String} {r m : Bytes}
    {info : SourceInfo} (hs : (h.newSource env userID req response).2 = .source r m info) :
    m = req.mountPoint ∧ h.mgr.Publishable req.mountPoint := by
  rcases h.newSource_cases env userID req response with
    ⟨mp, hget, hen, hsrc, heq⟩ | ⟨-, response', heq⟩
  · rw [heq] at hs
    cases hs
    exact ⟨rfl, mp, hget, hen, hsrc⟩
  · rw [heq] at hs
    cases hs

/-! ## The paths to `newSource` -/

/-- What `authenticateBasic` passes for the role base has user credentials, once its binding is
checked where the mode asks for it. -/
theorem hasUserCredentials_of_authenticateBasic (hcur : h.acctSvc.CacheCurrent bc) {user : User}
    (hu : (h.authenticateBasic bc env req roleBase).2 = .ok (some user))
    (hbind : h.cfg.auth.ntripSourceAuth = ascii "user_binding" →
      (h.authenticateBasic bc env req roleBase).1.hasBinding env.fails user.id req.mountPoint =
        .ok true) :
    h.HasUserCredentials bc env req := by
  obtain ⟨username, password, hparse, hauth, hrole⟩ := authenticateBasic_eq_some hu
  refine ⟨username, password, user, hparse, hauth, hcur.hasEnabledUser hauth, hrole, fun hm => ?_⟩
  rw [← hasBinding_authenticateBasic req roleBase]
  exact hbind hm

/-- In the mode `user_binding`, `authenticateSource` lets credentials pass only. -/
theorem credentialed_of_authenticateSource (hcur : h.acctSvc.CacheCurrent bc)
    (hmode : h.cfg.auth.ntripSourceAuth = ascii "user_binding") (ht : req.type = .sourceRev1)
    {svc : Service} {userID : ℤ}
    (hok : h.authenticateSource bc env req = (svc, .ok (userID, true))) :
    h.Credentialed bc env req := by
  unfold authenticateSource at hok
  rw [if_pos hmode] at hok
  split_ifs at hok with hheader
  · split at hok
    next => cases hok
    next => cases hok
    next svc' user hbasic =>
      obtain ⟨-, hmap⟩ := Prod.mk.inj hok
      cases hhas : svc'.hasBinding env.fails user.id req.mountPoint with
      | error e =>
        rw [hhas] at hmap
        cases hmap
      | ok has =>
        rw [hhas] at hmap
        obtain ⟨-, rfl⟩ := Prod.mk.inj (Except.ok.inj hmap)
        refine .inl (hasUserCredentials_of_authenticateBasic hcur (by rw [hbasic]) fun _ => ?_)
        rw [hbasic]
        exact hhas
  · obtain ⟨-, hmap⟩ := Prod.mk.inj hok
    cases hvalid : h.acctSvc.verifyMountPointSourceSecret bc env.fails req.mountPoint
        req.password with
    | error e =>
      rw [hvalid] at hmap
      cases hmap
    | ok valid =>
      rw [hvalid] at hmap
      obtain ⟨-, rfl⟩ := Prod.mk.inj (Except.ok.inj hmap)
      exact .inr ⟨ht, hvalid⟩

theorem handleSourceRev1_source (hauth : h.cfg.auth.enabled = true)
    {r m : Bytes} {info : SourceInfo}
    (hs : (h.handleSourceRev1 bc env req).2 = .source r m info) :
    (∃ svc userID, h.authenticateSource bc env req = (svc, .ok (userID, true))) ∧
      h.mgr.Publishable m := by
  unfold handleSourceRev1 at hs
  rw [if_pos hauth] at hs
  split at hs
  next svc userID hok =>
    obtain ⟨rfl, hpub⟩ := publishable_of_newSource hs
    exact ⟨⟨svc, userID, hok⟩, hpub⟩
  next => cases hs

theorem handleSourceRev2_source (hcur : h.acctSvc.CacheCurrent bc)
    (hauth : h.cfg.auth.enabled = true) {r m : Bytes} {info : SourceInfo}
    (hs : (h.handleSourceRev2 bc env req).2 = .source r m info) :
    h.HasUserCredentials bc env req ∧ h.mgr.Publishable m := by
  unfold handleSourceRev2 at hs
  rw [if_pos hauth] at hs
  split at hs
  next svc user hbasic =>
    dsimp only at hs
    split_ifs at hs with hmode
    · split at hs
      next hhas =>
        obtain ⟨rfl, hpub⟩ := publishable_of_newSource hs
        refine ⟨hasUserCredentials_of_authenticateBasic hcur (by rw [hbasic]) fun _ => ?_, hpub⟩
        rw [hbasic]
        exact hhas
      next => cases hs
    · obtain ⟨rfl, hpub⟩ := publishable_of_newSource hs
      exact ⟨hasUserCredentials_of_authenticateBasic hcur (by rw [hbasic])
        fun hm => absurd hm hmode, hpub⟩
  next => cases hs

/-- Where the mode is not `user_binding`, a `SOURCE` request publishes on any mountpoint whose
slot it can take, whatever it carries. -/
theorem handleSourceRev1_registers (hmode : h.cfg.auth.ntripSourceAuth ≠ ascii "user_binding")
    (ht : req.type = .sourceRev1) (hpub : h.mgr.Publishable req.mountPoint) :
    h.RegistersSource bc env req req.mountPoint := by
  have hserve : h.serve bc env req = h.newSource env 0 req "ICY 200 OK\r\n\r\n" := by
    unfold serve handleSourceRev1 authenticateSource
    rw [ht, if_neg hmode]
    split_ifs <;> rfl
  unfold RegistersSource
  rw [hserve]
  exact newSource_registers hpub

/-- On an empty database, a request without an `Authorization` header carries no credentials. -/
theorem not_credentialed (hdb : h.acctSvc.mountpoints = [])
    (hheader : req.header "Authorization" = []) : ¬ h.Credentialed bc env req := by
  rintro (⟨username, password, user, hparse, -⟩ | ⟨-, hsecret⟩)
  · rw [hheader] at hparse
    cases hparse
  · unfold Service.verifyMountPointSourceSecret at hsecret
    rw [hdb] at hsecret
    split_ifs at hsecret
    · cases hsecret
    · cases hsecret

/-- `SOURCE x /m` without headers. -/
def anonymousSource (m : Bytes) : NTRIPRequest :=
  { type := .sourceRev1, mountPoint := m, password := ascii "x" }

example : parseRequest (newReader [ascii "SOURCE x /M\r\n\r\n"]) =
    some (.ok (anonymousSource (ascii "M"), newReader [])) := by
  with_unfolding_all rfl

end ConnHandler

open ConnHandler

/-- **Publishing takes credentials exactly in the mode `user_binding`, for `POST`, and where no
source slot can be taken**: for a configuration with authentication on, a registry, a mountpoint
and a kind of source request, every request of that kind that becomes the source of the
mountpoint carries credentials, for every database and every account history, if and only if one
of the three is the case. -/
theorem publishing_credentialed_iff (bc : Bcrypt) {cfg : Config} (mgr : Manager)
    (limiter : GlobalLimiter) (m : Bytes) {type : RequestType}
    (hauth : cfg.auth.enabled = true)
    (htype : type = .sourceRev1 ∨ type = .sourceRev2) :
    (∀ acctSvc, (accountSystem bc).Reachable acctSvc → ∀ (env : Env) (req : NTRIPRequest),
        req.type = type → RegistersSource bc env ⟨cfg, mgr, acctSvc, limiter⟩ req m →
          Credentialed bc env ⟨cfg, mgr, acctSvc, limiter⟩ req) ↔
      cfg.auth.ntripSourceAuth = ascii "user_binding" ∨ type = .sourceRev2 ∨
        ¬ mgr.Publishable m := by
  constructor
  · intro hall
    by_contra hnot
    obtain ⟨hmode', htype', hpub⟩ : cfg.auth.ntripSourceAuth ≠ ascii "user_binding" ∧
        type ≠ .sourceRev2 ∧ mgr.Publishable m := by
      simpa [not_or] using hnot
    have hrev1 : type = .sourceRev1 := htype.resolve_right htype'
    refine not_credentialed rfl rfl
      (hall (.new .empty [] []) (.init ⟨_, _, _, rfl⟩) quietEnv (anonymousSource m) hrev1.symm ?_)
    exact handleSourceRev1_registers hmode' rfl hpub
  · rintro hcond acctSvc hreach env req ht ⟨r, info, mp, hs, -, -⟩
    have hcur := accountSystem_cacheCurrent hreach
    rcases htype with rfl | rfl
    · rw [serve, ht] at hs
      obtain ⟨⟨svc, userID, hok⟩, hpub⟩ := handleSourceRev1_source hauth hs
      rcases hcond with hub | h2 | hnot
      · exact credentialed_of_authenticateSource hcur hub ht hok
      · cases h2
      · exact absurd hpub hnot
    · rw [serve, ht] at hs
      exact .inl (handleSourceRev2_source hcur hauth hs).1

/-- The default configuration with the mode `secret`. -/
def secretConfig : Config :=
  { auth := { defaultConfig.auth with ntripSourceAuth := ascii "secret" } }

theorem publishing_credentialed_iff_secret :
    (∀ acctSvc, (accountSystem plainBcrypt).Reachable acctSvc →
        ∀ (env : Env) (req : NTRIPRequest), req.type = .sourceRev1 →
          RegistersSource plainBcrypt env ⟨secretConfig, oneMountpoint, acctSvc, ⟨0, 5000⟩⟩ req
            (ascii "M") →
          Credentialed plainBcrypt env ⟨secretConfig, oneMountpoint, acctSvc, ⟨0, 5000⟩⟩ req) ↔
      secretConfig.auth.ntripSourceAuth = ascii "user_binding" ∨
        RequestType.sourceRev1 = .sourceRev2 ∨ ¬ oneMountpoint.Publishable (ascii "M") :=
  publishing_credentialed_iff plainBcrypt oneMountpoint ⟨0, 5000⟩ (ascii "M") rfl (.inl rfl)

/-- In the mode `secret`, `SOURCE x /M` without an `Authorization` header becomes the source of
`M`, although the database holds neither a user nor a secret. -/
theorem publishing_not_credentialed :
    ¬ ∀ (bc : Bcrypt) (cfg : Config), cfg.auth.enabled = true →
      (cfg.auth.ntripSourceAuth = ascii "user_binding" ∨
        cfg.auth.ntripSourceAuth = ascii "secret") →
      ∀ (mgr : Manager) (limiter : GlobalLimiter) (acctSvc : Service),
        (accountSystem bc).Reachable acctSvc → ∀ (env : Env) (req : NTRIPRequest) (m : Bytes),
          (req.type = .sourceRev1 ∨ req.type = .sourceRev2) →
          RegistersSource bc env ⟨cfg, mgr, acctSvc, limiter⟩ req m →
            Credentialed bc env ⟨cfg, mgr, acctSvc, limiter⟩ req := by
  intro hall
  refine not_credentialed rfl rfl
    (hall plainBcrypt secretConfig rfl (.inr rfl) oneMountpoint ⟨0, 5000⟩ (.new .empty [] [])
      (.init ⟨_, _, _, rfl⟩) quietEnv (anonymousSource (ascii "M")) (ascii "M") (.inl rfl) ?_)
  exact handleSourceRev1_registers (by decide) rfl ⟨_, rfl, rfl, rfl⟩

end NtripCaster
