import NtripCaster.Caster.Access

/-!
# The letter case of header names

HTTP compares header names without regard to letter case. `readHeaders` keeps names as they are
written, and the handlers look `Authorization` up in this spelling only: other spellings are as good
as no header, which is refused, or makes a `SOURCE` request one with the secret of the mountpoint.

## Main definitions

* `SameButCase`, `HeadersSameButCase`: request headers that differ in the letter case of names
* `SameCredentials`: two requests give the same credentials in the spelling that is looked up
* `soleAdmin`: a caster with one user, bound to a mountpoint

## Main results

* `parseRequest_header`: what the header lines say makes no difference to `ParseRequest`
* `ConnHandler.serve_congr`: the same credentials lead to the same decision
* `header_names_iff`: and no others do, on every configuration and state
-/

namespace NtripCaster

/-! ## Requests that differ in letter case -/

/-- An ASCII letter in lower case. -/
def toLower (c : UInt8) : UInt8 := if 65 ≤ c ∧ c ≤ 90 then c + 32 else c

/-- Header lines that differ in nothing but the letter case of the name. -/
def SameButCase (line line' : Bytes) : Prop :=
  line = line' ∨ ∃ name name' value, 58 ∉ name ∧ 58 ∉ name' ∧
    name.map toLower = name'.map toLower ∧ line = name ++ 58 :: value ∧
      line' = name' ++ 58 :: value

/-- Header blocks, line by line. -/
inductive BlocksSameButCase : Bytes → Bytes → Prop
  | blank {line : Bytes} (h : IsBlankLine line) : BlocksSameButCase line line
  | line {line line' block block' : Bytes} (hl : IsHeaderLine line) (h : SameButCase line line')
      (hb : BlocksSameButCase block block') : BlocksSameButCase (line ++ block) (line' ++ block')

/-- Request headers: the same request line, and header lines that differ in the letter case of
their names. -/
def HeadersSameButCase (header header' : Bytes) : Prop :=
  ∃ l block block', 10 ∉ l ∧ BlocksSameButCase block block' ∧
    header = l ++ [10] ++ block ∧ header' = l ++ [10] ++ block'

theorem toLower_eq_lineFeed {c : UInt8} : toLower c = 10 ↔ c = 10 := by
  unfold toLower
  grind

theorem lineFeed_mem_map {name : Bytes} : 10 ∈ name.map toLower ↔ 10 ∈ name := by
  simp only [List.mem_map, toLower_eq_lineFeed, exists_eq_right]

theorem SameButCase.isHeaderLine {line line' : Bytes} (h : SameButCase line line')
    (hl : IsHeaderLine line) : IsHeaderLine line' := by
  rcases h with rfl | ⟨name, name', value, -, -, hname, rfl, rfl⟩
  · exact hl
  · obtain ⟨l, heq, h10, -⟩ := hl
    -- the line feed is the end of the value
    rcases List.eq_nil_or_concat value with rfl | ⟨value, c, rfl⟩
    · obtain ⟨-, hc⟩ := List.append_inj' heq rfl
      cases hc
    · rw [List.concat_eq_append, ← List.cons_append, ← List.append_assoc] at heq
      obtain ⟨rfl, hc⟩ := List.append_inj' heq rfl
      obtain rfl := (List.cons.inj hc).1
      refine ⟨name' ++ 58 :: value, by simp, ?_, 58, by simp, by decide⟩
      simp only [List.mem_append, not_or] at h10 ⊢
      exact ⟨fun hmem => h10.1 (lineFeed_mem_map.mp (hname ▸ lineFeed_mem_map.mpr hmem)), h10.2⟩

theorem BlocksSameButCase.isHeaderBlock {block block' : Bytes}
    (h : BlocksSameButCase block block') : IsHeaderBlock block ∧ IsHeaderBlock block' := by
  induction h with
  | blank h => exact ⟨.blank h, .blank h⟩
  | line hl h _ ih => exact ⟨.line hl ih.1, .line (h.isHeaderLine hl) ih.2⟩

/-! ## Parsing -/

/-- A header block is read up to its end, and fills the headers. -/
theorem readHeaders_block {block : Bytes} (hb : IsHeaderBlock block) {rest : Bytes}
    {req : NTRIPRequest} {r : Reader} (hs : r.stream = block ++ rest)
    {res : Except ParseError (NTRIPRequest × Reader)} (h : readHeaders req r = some res) :
    ∃ headers r', res = .ok ({ req with headers := headers }, r') := by
  induction hb generalizing req r with
  | blank hblank =>
    obtain ⟨l, rfl, hl⟩ := hblank
    have h10 := not_mem_of_blank hl
    unfold readHeaders at h
    split at h
    next => cases h
    next err herr =>
      obtain ⟨r', hres, -⟩ := Reader.readString_stream h10 hs herr
      cases hres
    next line r' hline =>
      obtain ⟨r', hres, -⟩ := Reader.readString_stream h10 hs hline
      obtain ⟨rfl, rfl⟩ := Prod.mk.inj (Except.ok.inj hres)
      rcases isBlankLine_or_isHeaderLine h10 with ⟨hnil, -⟩ | ⟨-, l', heq, -, c, hc, hne⟩
      · rw [if_pos hnil] at h
        exact ⟨req.headers, r', (Option.some.inj h).symm⟩
      · obtain ⟨rfl, -⟩ := List.append_inj' heq rfl
        exact absurd (hl c hc) hne
  | @line line block hline hblock ih =>
    obtain ⟨l, rfl, h10, c, hc, hne⟩ := hline
    rw [List.append_assoc _ block] at hs
    unfold readHeaders at h
    split at h
    next => cases h
    next err herr =>
      obtain ⟨r', hres, -⟩ := Reader.readString_stream h10 hs herr
      cases hres
    next line r' hread =>
      obtain ⟨r', hres, hrest⟩ := Reader.readString_stream h10 hs hread
      obtain ⟨rfl, rfl⟩ := Prod.mk.inj (Except.ok.inj hres)
      rcases isBlankLine_or_isHeaderLine h10 with ⟨-, l', heq, hblank⟩ | ⟨hnot, -⟩
      · obtain ⟨rfl, -⟩ := List.append_inj' heq rfl
        exact absurd (hblank c hc) hne
      · rw [if_neg hnot] at h
        obtain ⟨headers, r'', rfl⟩ := ih hrest h
        unfold NTRIPRequest.addHeader
        split <;> exact ⟨headers, r'', rfl⟩

/-- What the header lines say makes no difference to what `ParseRequest` returns, but for the
headers. -/
theorem parseRequest_header {l block : Bytes} (hl : 10 ∉ l) (hb : IsHeaderBlock block)
    {rest : Bytes} {r : Reader} (hs : r.stream = l ++ [10] ++ block ++ rest)
    {res : Except ParseError (NTRIPRequest × Reader)} (h : parseRequest r = some res) :
    match requestLine (fields (trimEOL (l ++ [10]))) with
    | .error err => res = .error err
    | .ok req => ∃ headers r', res = .ok ({ req with headers := headers }, r') := by
  rw [List.append_assoc _ block] at hs
  unfold parseRequest at h
  split at h
  next => cases h
  next err herr =>
    obtain ⟨r', hres, -⟩ := Reader.readString_stream hl hs herr
    cases hres
  next line r' hline =>
    obtain ⟨r', hres, hrest⟩ := Reader.readString_stream hl hs hline
    obtain ⟨rfl, rfl⟩ := Prod.mk.inj (Except.ok.inj hres)
    cases hreq : requestLine (fields (trimEOL (l ++ [10]))) with
    | error err =>
      rw [hreq] at h
      exact (Option.some.inj h).symm
    | ok req =>
      rw [hreq] at h
      exact readHeaders_block hb hrest h

/-- Requests that differ in the letter case of header names are both accepted or both refused, and
have all but the headers in common. -/
theorem parseRequest_sameButCase {header header' rest rest' : Bytes} {r₀ r₀' r : Reader}
    (hcase : HeadersSameButCase header header') (hs : r₀.stream = header ++ rest)
    (hs' : r₀'.stream = header' ++ rest') {req : NTRIPRequest}
    (hparse : parseRequest r₀ = some (.ok (req, r))) (hread : parseRequest r₀' ≠ none) :
    ∃ headers r', parseRequest r₀' = some (.ok ({ req with headers := headers }, r')) := by
  obtain ⟨l, block, block', hl, hblocks, rfl, rfl⟩ := hcase
  obtain ⟨hb, hb'⟩ := hblocks.isHeaderBlock
  obtain ⟨res, hparse'⟩ := Option.ne_none_iff_exists'.mp hread
  have hreq := parseRequest_header hl hb hs hparse
  have hreq' := parseRequest_header hl hb' hs' hparse'
  split at hreq
  next => cases hreq
  next req₀ heq =>
    obtain ⟨headers, r₁, hres⟩ := hreq
    obtain ⟨rfl, rfl⟩ := Prod.mk.inj (Except.ok.inj hres)
    rw [heq] at hreq'
    obtain ⟨headers', r', rfl⟩ := hreq'
    exact ⟨headers', r', hparse'⟩

/-! ## Handlers -/

/-- The requests give the same Basic credentials under the name `Authorization`; and where a
`SOURCE` request could do with the secret of a mountpoint, neither or both have such a header. -/
structure SameCredentials (req req' : NTRIPRequest) : Prop where
  basic : parseBasicAuth (req.header "Authorization") =
    parseBasicAuth (req'.header "Authorization")
  present : req.type = .sourceRev1 → req.mountPoint ≠ [] → req.password ≠ [] →
    (req.header "Authorization" = [] ↔ req'.header "Authorization" = [])

namespace ConnHandler

section Congruence

variable {bc : Bcrypt} {env : Env} {h : ConnHandler} {req : NTRIPRequest}
  {headers : GoMap Bytes Bytes}

/-- Without credentials nobody is authenticated, header or not. -/
theorem authenticateBasic_of_none {role : Bytes}
    (hnone : parseBasicAuth (req.header "Authorization") = none) :
    h.authenticateBasic bc env req role = (h.acctSvc, .ok none) := by
  unfold authenticateBasic
  rw [hnone]
  exact ite_self _

theorem authenticateBasic_congr {role : Bytes}
    (hbasic : parseBasicAuth (req.header "Authorization") =
      parseBasicAuth (({ req with headers := headers } : NTRIPRequest).header "Authorization")) :
    h.authenticateBasic bc env req role =
      h.authenticateBasic bc env { req with headers := headers } role := by
  cases hparse : parseBasicAuth (req.header "Authorization") with
  | none =>
    rw [authenticateBasic_of_none hparse, authenticateBasic_of_none (hbasic ▸ hparse)]
  | some credentials =>
    have hne : ∀ {b : Bytes}, parseBasicAuth b = some credentials → b ≠ [] := by
      rintro _ hb rfl
      cases hb
    rw [hparse] at hbasic
    unfold authenticateBasic
    rw [if_neg (hne hparse), if_neg (hne hbasic.symm), hparse, ← hbasic]

/-- Nor may anybody publish with an empty secret, or on a mountpoint without a name. -/
theorem authenticateSource_of_none (hmode : h.cfg.auth.ntripSourceAuth = ascii "user_binding")
    (hnone : parseBasicAuth (req.header "Authorization") = none)
    (hempty : req.mountPoint = [] ∨ req.password = []) :
    h.authenticateSource bc env req = (h.acctSvc, .ok (0, false)) := by
  unfold authenticateSource
  rw [if_pos hmode, authenticateBasic_of_none hnone]
  split_ifs
  · rfl
  · rw [Service.verifyMountPointSourceSecret, if_pos hempty]
    rfl

/-- Nothing of the request is read but what the two have in common. -/
theorem authenticateSource_congr (htype : req.type = .sourceRev1)
    (hsame : SameCredentials req { req with headers := headers }) :
    h.authenticateSource bc env req =
      h.authenticateSource bc env { req with headers := headers } := by
  have hbasic : h.authenticateBasic bc env req roleBase =
      h.authenticateBasic bc env { req with headers := headers } roleBase :=
    authenticateBasic_congr hsame.basic
  by_cases hmode : h.cfg.auth.ntripSourceAuth = ascii "user_binding"
  · by_cases hpresent : req.header "Authorization" = [] ↔
        ({ req with headers := headers } : NTRIPRequest).header "Authorization" = []
    · unfold authenticateSource
      rw [hbasic]
      simp only [ne_eq, hpresent]
    · have hempty : req.mountPoint = [] ∨ req.password = [] := by
        by_contra hnot
        rw [not_or] at hnot
        exact hpresent (hsame.present htype hnot.1 hnot.2)
      have hnone : parseBasicAuth (req.header "Authorization") = none := by
        by_cases hnil : req.header "Authorization" = []
        · rw [hnil]
          rfl
        · have hnil' :
              ({ req with headers := headers } : NTRIPRequest).header "Authorization" = [] := by
            by_contra hne
            exact hpresent (iff_of_false hnil hne)
          rw [hsame.basic, hnil']
          rfl
      have hnone' : parseBasicAuth
          (({ req with headers := headers } : NTRIPRequest).header "Authorization") = none :=
        hsame.basic.symm.trans hnone
      exact (authenticateSource_of_none hmode hnone hempty).trans
        (authenticateSource_of_none hmode hnone' hempty).symm
  · unfold authenticateSource
    rw [if_neg hmode, if_neg hmode]

/-- **The same credentials lead to the same decision**, and to the same state. -/
theorem serve_congr (htype : AccessRequest req)
    (hsame : SameCredentials req { req with headers := headers }) :
    h.serve bc env req = h.serve bc env { req with headers := headers } := by
  have hbasic : ∀ role, h.authenticateBasic bc env req role =
      h.authenticateBasic bc env { req with headers := headers } role :=
    fun role => authenticateBasic_congr hsame.basic
  unfold serve
  rcases htype with htype | htype | htype
  · rw [htype]
    show h.handleRover bc env req = h.handleRover bc env { req with headers := headers }
    unfold handleRover
    rw [hbasic]
    rfl
  · rw [htype]
    show h.handleSourceRev1 bc env req = h.handleSourceRev1 bc env { req with headers := headers }
    unfold handleSourceRev1
    rw [authenticateSource_congr htype hsame]
    rfl
  · rw [htype]
    show h.handleSourceRev2 bc env req = h.handleSourceRev2 bc env { req with headers := headers }
    unfold handleSourceRev2
    rw [hbasic]
    rfl

end Congruence

/-! ## Credentials that are told apart -/

/-- A caster with one user, an administrator who is bound to the mountpoint `name`, which may have a
secret; the password hash is the password. -/
def soleAdmin (username password name : Bytes) (secret : Option Bytes) : ConnHandler where
  cfg := defaultConfig
  mgr := .new
  acctSvc := .new
    ⟨[⟨1, username, password, roleAdmin, 1⟩], 1, List.nodup_singleton _, List.nodup_singleton _,
      by simp⟩
    [⟨1, name, [], 1, ascii "RTCM3", ascii "user_binding", secret, none, none, none⟩] [⟨1, 1, 1⟩]
  globalLimiter := ⟨0, 0⟩

section Told

variable {username password name : Bytes} {secret : Option Bytes} {req : NTRIPRequest}

theorem soleAdmin_cacheCurrent :
    (soleAdmin username password name secret).acctSvc.CacheCurrent plainBcrypt :=
  Service.CacheCurrent.new _ _ _

/-- The credentials of the user pass, and no others. -/
theorem passes_soleAdmin_iff (hname : req.mountPoint = name) :
    (∃ u, (soleAdmin username password name secret).Authenticates plainBcrypt quietEnv req u ∧
        (soleAdmin username password name secret).Passes req u) ↔
      parseBasicAuth (req.header "Authorization") = some (username, password) := by
  have hauth : ∀ username' password',
      ((soleAdmin username password name secret).acctSvc.authenticate plainBcrypt quietEnv.fails
        quietEnv.now quietEnv.now' username' password').2 =
      (soleAdmin username password name secret).acctSvc.authenticateUncached plainBcrypt noFault
        username' password' :=
    fun _ _ => Service.authenticate_of_cacheLookup_none rfl
  constructor
  · rintro ⟨u, ⟨username', password', hparse, hu, -⟩, -⟩
    rw [hauth] at hu
    obtain ⟨hrow, -, hcmp⟩ := Service.authenticateUncached_eq_some.mp hu
    obtain ⟨r, hr, rfl⟩ := Option.map_eq_some_iff.mp hrow
    obtain ⟨hmem, rfl⟩ := UserTable.byName_eq_some.mp hr
    obtain rfl := List.mem_singleton.mp hmem
    rw [hparse, ← eq_of_beq hcmp]
    rfl
  · intro hparse
    have hmem : (⟨1, username, password, roleAdmin, 1⟩ : UserRow) ∈
        (soleAdmin username password name secret).acctSvc.users.rows := List.mem_singleton.mpr rfl
    refine ⟨⟨1, username, password, roleAdmin, true⟩,
      ⟨username, password, hparse, ?_, rfl, _, hmem, rfl⟩, .inl rfl,
      .inr ⟨_, List.mem_singleton.mpr rfl, rfl, _, List.mem_singleton.mpr rfl, rfl, hname.symm⟩⟩
    rw [hauth]
    refine Service.authenticateUncached_eq_some.mpr ⟨?_, rfl, beq_self_eq_true _⟩
    exact Option.map_eq_some_iff.mpr ⟨_, UserTable.byName_eq_some.mpr ⟨hmem, rfl⟩, rfl⟩

theorem verify_soleAdmin (hname : req.mountPoint = name) :
    (soleAdmin username password name secret).acctSvc.verifyMountPointSourceSecret plainBcrypt
        quietEnv.fails req.mountPoint req.password =
      .ok (decide (req.mountPoint ≠ [] ∧ req.password ≠ [] ∧ secret = some req.password)) := by
  unfold Service.verifyMountPointSourceSecret
  split_ifs with hempty hfails
  · rw [decide_eq_false]
    rintro ⟨hmount, hpassword, -⟩
    exact hempty.elim hmount hpassword
  · cases hfails
  · obtain ⟨hmount, hpassword⟩ := not_or.mp hempty
    simp only [soleAdmin, Service.new, List.find?_cons, hname, beq_self_eq_true]
    rw [hname] at hmount
    cases secret with
    | none => simp
    | some hash =>
      by_cases hhash : hash = []
      · subst hhash
        simp [Ne.symm hpassword]
      · simp [hhash, hmount, hpassword, plainBcrypt, beq_eq_decide]

/-- A `SOURCE` request without a header needs the secret. -/
theorem acceptsCredentials_of_nil (htype : req.type = .sourceRev1)
    (hnil : req.header "Authorization" = []) (hname : req.mountPoint = name) :
    (soleAdmin username password name secret).AcceptsCredentials plainBcrypt quietEnv req ↔
      req.mountPoint ≠ [] ∧ req.password ≠ [] ∧ secret = some req.password := by
  have hmode : (soleAdmin username password name secret).cfg.auth.ntripSourceAuth =
      ascii "user_binding" := rfl
  have henabled : (soleAdmin username password name secret).cfg.auth.enabled = true := rfl
  have hsource : (soleAdmin username password name secret).authenticateSource plainBcrypt quietEnv
      req = ((soleAdmin username password name secret).acctSvc,
        .ok (0, decide (req.mountPoint ≠ [] ∧ req.password ≠ [] ∧
          secret = some req.password))) := by
    unfold authenticateSource
    rw [if_pos hmode, if_neg (not_not.mpr hnil), verify_soleAdmin hname]
    rfl
  have hserve : (soleAdmin username password name secret).serve plainBcrypt quietEnv req =
      (soleAdmin username password name secret).handleSourceRev1 plainBcrypt quietEnv req := by
    rw [serve, htype]
  unfold AcceptsCredentials
  rw [hserve, handleSourceRev1, if_pos henabled, hsource]
  by_cases hsecret : req.mountPoint ≠ [] ∧ req.password ≠ [] ∧ secret = some req.password
  · rw [decide_eq_true hsecret]
    refine iff_of_true (fun response hr hclosed => ?_) hsecret
    exact not_mem_credentialRefusals (newSource_closed hclosed) hr
  · rw [decide_eq_false hsecret]
    refine iff_of_false (fun hall => ?_) hsecret
    exact hall (ascii "ERROR - Bad Password\r\n") (by simp [credentialRefusals]) rfl

/-- Any other request needs the credentials of the user. -/
theorem acceptsCredentials_of_header (htype : AccessRequest req)
    (hheader : req.type = .sourceRev1 → req.header "Authorization" ≠ [])
    (hname : req.mountPoint = name) :
    (soleAdmin username password name secret).AcceptsCredentials plainBcrypt quietEnv req ↔
      parseBasicAuth (req.header "Authorization") = some (username, password) := by
  rw [← passes_soleAdmin_iff hname]
  refine acceptsCredentials_iff ?_
  rcases htype with htype | htype | htype
  · rw [serve, htype]
    exact handleRover_decided soleAdmin_cacheCurrent (fun _ => rfl) rfl rfl htype
  · rw [serve, htype]
    exact handleSourceRev1_decided soleAdmin_cacheCurrent (fun _ => rfl) rfl rfl htype
      (hheader htype)
  · rw [serve, htype]
    exact handleSourceRev2_decided soleAdmin_cacheCurrent (fun _ => rfl) rfl rfl htype

/-- Where no mountpoint has a secret, every request needs the credentials of the user. -/
theorem acceptsCredentials_soleAdmin (htype : AccessRequest req) (hname : req.mountPoint = name) :
    (soleAdmin username password name none).AcceptsCredentials plainBcrypt quietEnv req ↔
      parseBasicAuth (req.header "Authorization") = some (username, password) := by
  by_cases hnil : req.type = .sourceRev1 ∧ req.header "Authorization" = []
  · rw [acceptsCredentials_of_nil hnil.1 hnil.2 hname, hnil.2]
    refine iff_of_false ?_ nofun
    rintro ⟨-, -, hsecret⟩
    cases hsecret
  · exact acceptsCredentials_of_header htype (fun ht h => hnil ⟨ht, h⟩) hname

/-- Requests that lead to the same decision on every configuration and state give the same
credentials. -/
theorem sameCredentials_of_serve {headers : GoMap Bytes Bytes} (htype : AccessRequest req)
    (hall : ∀ (bc : Bcrypt) (env : Env) (h : ConnHandler),
      (h.serve bc env req).2 = (h.serve bc env { req with headers := headers }).2) :
    SameCredentials req { req with headers := headers } := by
  have haccepts : ∀ h : ConnHandler, h.AcceptsCredentials plainBcrypt quietEnv req ↔
      h.AcceptsCredentials plainBcrypt quietEnv { req with headers := headers } := by
    intro h
    unfold AcceptsCredentials
    rw [hall]
  have hbasic : parseBasicAuth (req.header "Authorization") =
      parseBasicAuth (({ req with headers := headers } : NTRIPRequest).header "Authorization") := by
    refine Option.ext fun ⟨username, password⟩ => ?_
    rw [← acceptsCredentials_soleAdmin htype rfl, haccepts]
    exact acceptsCredentials_soleAdmin htype rfl
  refine ⟨hbasic, fun hrev1 hmount hpassword => ?_⟩
  -- on a mountpoint with the password as its secret, a header without credentials is in the way
  have hsecret := haccepts (soleAdmin [] [] req.mountPoint (some req.password))
  have hyes : ∀ r : NTRIPRequest, r.type = .sourceRev1 → r.header "Authorization" = [] →
      r.mountPoint = req.mountPoint → r.password = req.password →
      (soleAdmin [] [] req.mountPoint (some req.password)).AcceptsCredentials plainBcrypt quietEnv
        r := by
    intro r hr hnil hm hp
    exact (acceptsCredentials_of_nil hr hnil hm).mpr ⟨hm ▸ hmount, hp ▸ hpassword, by rw [hp]⟩
  have hno : ∀ r : NTRIPRequest, r.type = .sourceRev1 → r.header "Authorization" ≠ [] →
      parseBasicAuth (r.header "Authorization") = none → r.mountPoint = req.mountPoint →
      ¬ (soleAdmin [] [] req.mountPoint (some req.password)).AcceptsCredentials plainBcrypt quietEnv
        r := by
    intro r hr hheader hnone hm
    rw [acceptsCredentials_of_header (.inr (.inl hr)) (fun _ => hheader) hm, hnone]
    nofun
  constructor
  · intro hnil
    by_contra hheader
    refine hno { req with headers := headers } hrev1 hheader ?_ rfl
      (hsecret.mp (hyes req hrev1 hnil rfl rfl))
    rw [← hbasic, hnil]
    rfl
  · intro hnil
    by_contra hheader
    refine hno req hrev1 hheader ?_ rfl
      (hsecret.mpr (hyes { req with headers := headers } hrev1 hnil rfl rfl))
    rw [hbasic, hnil]
    rfl

end Told

/-- How the handling of a connection ends: with whom it is registered as, or with which response it
is closed. -/
def decision (bc : Bcrypt) (env : Env) (h : ConnHandler) (conn : List Bytes) : Option Outcome :=
  (h.handle bc env conn).map fun x => x.2.1

theorem decision_eq {bc : Bcrypt} {env : Env} {h : ConnHandler} {conn : List Bytes}
    {req : NTRIPRequest} {r : Reader}
    (hparse : parseRequest (newReader conn) = some (.ok (req, r))) :
    h.decision bc env conn = some (h.serve bc env req).2 := by
  rw [decision, handle, hparse]
  rfl

end ConnHandler

open ConnHandler

/-- **The letter case of header names matters exactly for the credentials**: two requests of a
rover or a source whose headers differ in the letter case of names are both accepted by
`ParseRequest`, and lead to the same decision on every configuration and state if and only if they
give the same credentials under the name `Authorization`, and neither or both of them have such a
header where a `SOURCE` request could do with the secret of a mountpoint. -/
theorem header_names_iff {header header' rest rest' : Bytes} {conn conn' : List Bytes}
    (hcase : HeadersSameButCase header header') (hs : (newReader conn).stream = header ++ rest)
    (hs' : (newReader conn').stream = header' ++ rest') {req : NTRIPRequest} {r : Reader}
    (hparse : parseRequest (newReader conn) = some (.ok (req, r))) (htype : AccessRequest req)
    (hread : parseRequest (newReader conn') ≠ none) :
    ∃ req' r', parseRequest (newReader conn') = some (.ok (req', r')) ∧
      ((∀ (bc : Bcrypt) (env : Env) (h : ConnHandler),
          h.decision bc env conn = h.decision bc env conn') ↔ SameCredentials req req') := by
  obtain ⟨headers, r', hparse'⟩ := parseRequest_sameButCase hcase hs hs' hparse hread
  refine ⟨_, r', hparse', ?_⟩
  simp only [decision_eq hparse, decision_eq hparse', Option.some.injEq]
  constructor
  · exact sameCredentials_of_serve htype
  · exact fun hsame bc env h => congrArg Prod.snd (serve_congr htype hsame)

/-- `GET /M` with the credentials of `root` under a header name. -/
def getRoot (name : String) : Bytes :=
  ascii "GET /M HTTP/1.0\r" ++ [10] ++
    ((ascii name ++ 58 :: ascii " Basic cm9vdDpwdw==\r\n") ++ ascii "\r\n")

theorem getRoot_sameButCase :
    HeadersSameButCase (getRoot "Authorization") (getRoot "authorization") := by
  refine ⟨_, _, _, by decide, .line ?_ (.inr ⟨_, _, _, ?_, ?_, ?_, rfl, rfl⟩) (.blank ?_), rfl, rfl⟩
  · exact ⟨ascii "Authorization: Basic cm9vdDpwdw==\r", by decide, by decide, 65, by decide,
      by decide⟩
  · decide
  · decide
  · decide
  · exact ⟨[13], rfl, by simp⟩

theorem parseRequest_getRoot :
    parseRequest (newReader [getRoot "Authorization"]) = some (.ok ({
      type := .rover
      mountPoint := ascii "M"
      headers := (∅ : GoMap Bytes Bytes).insert (ascii "Authorization") (ascii "Basic cm9vdDpwdw==")
      proto := ascii "HTTP/1.0" }, newReader [])) := by
  with_unfolding_all rfl

theorem parseRequest_getRoot_lower :
    parseRequest (newReader [getRoot "authorization"]) = some (.ok ({
      type := .rover
      mountPoint := ascii "M"
      headers := (∅ : GoMap Bytes Bytes).insert (ascii "authorization") (ascii "Basic cm9vdDpwdw==")
      proto := ascii "HTTP/1.0" }, newReader [])) := by
  with_unfolding_all rfl

theorem header_names_iff_getRoot :
    ∃ req' r', parseRequest (newReader [getRoot "authorization"]) = some (.ok (req', r')) ∧
      ((∀ (bc : Bcrypt) (env : Env) (h : ConnHandler),
          h.decision bc env [getRoot "Authorization"] =
            h.decision bc env [getRoot "authorization"]) ↔
        SameCredentials {
          type := .rover
          mountPoint := ascii "M"
          headers := (∅ : GoMap Bytes Bytes).insert (ascii "Authorization")
            (ascii "Basic cm9vdDpwdw==")
          proto := ascii "HTTP/1.0" } req') :=
  have hs : ∀ header : Bytes, (newReader [header]).stream = header ++ [] := fun _ => rfl
  header_names_iff getRoot_sameButCase (hs _) (hs _) parseRequest_getRoot (.inl rfl)
    (by rw [parseRequest_getRoot_lower]; nofun)

/-- `root` subscribes to `M`, whose source is online, and is refused with a header
`authorization`. -/
theorem header_names_not_insensitive :
    ¬ ∀ (header header' : Bytes), HeadersSameButCase header header' →
      ∀ (bc : Bcrypt) (env : Env) (h : ConnHandler),
        h.decision bc env [header] = h.decision bc env [header'] := by
  intro hall
  have heq := hall _ _ getRoot_sameButCase plainBcrypt quietEnv
    ⟨defaultConfig, oneMountpoint.set (ascii "M")
      ((newMountPoint (ascii "M") [] [] 64 3000000000 0).setSource ⟨7, ascii "x", 0⟩).1,
      rootService, ⟨0, 5000⟩⟩
  rw [decision_eq parseRequest_getRoot, decision_eq parseRequest_getRoot_lower] at heq
  exact absurd heq (by decide)

end NtripCaster
