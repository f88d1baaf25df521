import NtripCaster.Account.AuthCache

/-!
# Revoking credentials while authentications run

Calls of `Authenticate` and account changes interleave at their atomic steps: cache lookup,
database read, hash comparison and cache store on the one side, database write and cache clear
on the other. A pair of name and password is revoked once a change that ended its validity has
returned. No later call succeeds with a revoked pair, provided no call stores under the cache
key of a revoked pair; a row read before the change and stored after its clear does so.

## Main definitions

* `AuthPC`, `AuthPC.advance`: the steps of `Authenticate`
* `Change`, `ChangePC`: the steps of an account change
* `revocationSystem`: calls and changes, interleaved
* `StoresNothingRevoked`: the condition on a step

## Main results

* `AuthPC.advance_alone`, `Change.write_alone`: a call or a change that runs alone is the
  service's
* `revocation_final`: under the condition, a call that starts after a revocation returns nil
* `revocation_not_final`: a stale row is cached after the revocation
-/

namespace NtripCaster

open Transition

/-! ## The steps of a call -/

/-- Where a call of `Authenticate` stands: its next atomic step, or what it returned. -/
inductive AuthPC
  | lookup
  | read
  | compare (u : User)
  | store (u : User)
  | done (r : Except AccountError (Option User))

/-- One atomic step of `Authenticate`. -/
def AuthPC.advance (bc : Bcrypt) (fails : Query → Bool) (now : ℤ) (username password : Bytes)
    (s : Service) : AuthPC → Service × AuthPC
  | .lookup =>
    match s.cacheLookup (cacheKey username password) now with
    | some u => (s, .done (.ok (some u)))
    | none => (s, .read)
  | .read =>
    match s.getUserByName fails username with
    | .error e => (s, .done (.error e))
    | .ok none => (s, .done (.ok none))
    | .ok (some u) => if !u.enabled then (s, .done (.ok none)) else (s, .compare u)
  | .compare u =>
    if !bc.compareHashAndPassword u.passwordHash password then (s, .done (.ok none))
    else (s, .store u)
  -- the row is stored as it was read, whatever has happened to it since
  | .store u => (s.cacheStore (cacheKey username password) u now, .done (.ok (some u)))
  | .done r => (s, .done r)

/-- A call that runs alone is `Authenticate`. -/
theorem AuthPC.advance_alone (bc : Bcrypt) (fails : Query → Bool) (now now' : ℤ)
    (username password : Bytes) (s : Service) :
    let next t (x : Service × AuthPC) := x.2.advance bc fails t username password x.1
    next now' (next now' (next now (next now (s, .lookup)))) =
      ((s.authenticate bc fails now now' username password).1,
        .done (s.authenticate bc fails now now' username password).2) := by
  dsimp only
  cases hlook : s.cacheLookup (cacheKey username password) now with
  | some u => simp [AuthPC.advance, Service.authenticate, hlook]
  | none =>
    cases hrow : s.getUserByName fails username with
    | error e => simp [AuthPC.advance, Service.authenticate, hlook, hrow]
    | ok row =>
      cases row with
      | none => simp [AuthPC.advance, Service.authenticate, Service.checkUser, hlook, hrow]
      | some u =>
        by_cases hen : u.enabled <;>
          by_cases hcmp : bc.compareHashAndPassword u.passwordHash password <;>
          simp [AuthPC.advance, Service.authenticate, Service.checkUser, hlook, hrow, hen, hcmp]

/-- A call of `Authenticate` in progress; `late` marks a call that started when its pair was
revoked and has stayed so. -/
structure AuthCall where
  username : Bytes
  password : Bytes
  pc : AuthPC
  late : Bool

/-! ## The steps of a change -/

/-- An account change, with its arguments. -/
inductive Change
  | createUser (salt username password role : Bytes)
  | updateUser (id : ℤ) (role : Bytes) (enabled : Bool)
  | updatePassword (salt : Bytes) (id : ℤ) (newPassword : Bytes)
  | deleteUser (id : ℤ)

namespace Change

/-- The database write of a change: the new table, or `none` if it fails. -/
def write (bc : Bcrypt) (s : Service) : Change → Option UserTable
  | .createUser salt username password role =>
    (bc.generateFromPassword salt password).bind fun hash =>
      (s.users.insert username hash role).map Prod.fst
  | .updateUser id role enabled => some (s.updateUserRow id role enabled)
  | .updatePassword salt id newPassword =>
    (bc.generateFromPassword salt newPassword).map (s.updatePasswordRow id)
  | .deleteUser id => some (s.users.delete id)

/-- The user whose row a change writes; such a change clears the cache afterwards. -/
def target : Change → Option ℤ
  | .createUser .. => none
  | .updateUser id _ _ => some id
  | .updatePassword _ id _ => some id
  | .deleteUser id => some id

/-- The service after a change, by the service's own functions. -/
def call (bc : Bcrypt) (s : Service) : Change → Service
  | .createUser salt username password role => (s.createUser bc salt username password role).1
  | .updateUser id role enabled => s.updateUser id role enabled
  | .updatePassword salt id newPassword => (s.updatePassword bc salt id newPassword).1
  | .deleteUser id => s.deleteUser id

/-- A change that runs alone writes and then, if it has a target, clears the cache. -/
theorem write_alone (bc : Bcrypt) (s : Service) (c : Change) :
    c.call bc s =
      match c.write bc s with
      | none => s
      | some users =>
        match c.target with
        | none => { s with users := users }
        | some _ => { s with users := users }.cacheClear := by
  cases c with
  | createUser salt username password role =>
    simp only [call, write, target, Service.createUser]
    cases bc.generateFromPassword salt password with
    | none => rfl
    | some hash => cases h : s.users.insert username hash role <;> simp [h]
  | updateUser id role enabled => rfl
  | updatePassword salt id newPassword =>
    simp only [call, write, target, Service.updatePassword]
    cases bc.generateFromPassword salt newPassword <;> rfl
  | deleteUser id => rfl

end Change

/-- The database answers the pair with a user. -/
def UserTable.accepts (bc : Bcrypt) (t : UserTable) (username password : Bytes) : Bool :=
  (Service.checkUser bc ((t.byName username).map UserRow.scan) password).isSome

/-- The pairs a write to the user `id` revokes: the user's old name with a password that matched
the old hash, unless the new table still accepts the pair. -/
def UserTable.revokes (bc : Bcrypt) (before after : UserTable) (id : ℤ)
    (username password : Bytes) : Bool :=
  (before.rows.any fun r => r.id == id && r.username == username &&
    bc.compareHashAndPassword r.passwordHash password) && !after.accepts bc username password

/-- Where a change stands; `clear` carries the pairs that its return revokes. -/
inductive ChangePC
  | write
  | clear (revokes : Bytes → Bytes → Bool)
  | returned
  | failed

/-- A call that changes an account, under way. -/
structure ChangeCall where
  change : Change
  pc : ChangePC

/-! ## The interleaved system -/

/-- The service, the calls and changes made so far, and the pairs that are revoked. -/
structure RevocationState where
  service : Service
  auths : List AuthCall
  changes : List ChangeCall
  revoked : Bytes → Bytes → Bool

/-- A step: a call or a change begins, or one that is in progress takes its next step. -/
inductive RevocationStep
  | authenticate (username password : Bytes)
  | advance (i : ℕ) (fails : Query → Bool) (now : ℤ)
  | change (c : Change)
  | write (j : ℕ) (fails : Bool)
  | clear (j : ℕ)

namespace RevocationState

variable (bc : Bcrypt) (s : RevocationState)

/-- A change between write and clear, once `users` is the table: it no longer revokes what
`users` accepts. -/
def recheck (users : UserTable) (c : ChangeCall) : ChangeCall :=
  match c.pc with
  | .clear revokes =>
    { c with pc := .clear fun n p => revokes n p && !users.accepts bc n p }
  | _ => c

/-- A table is written: a pair it accepts is valid again, for every call and change. -/
def commit (users : UserTable) : RevocationState where
  service := { s.service with users := users }
  auths := s.auths.map fun c =>
    { c with late := c.late && !users.accepts bc c.username c.password }
  changes := s.changes.map (recheck bc users)
  revoked n p := s.revoked n p && !users.accepts bc n p

/-- A call starts, or one that is under way makes its next step. -/
def step : RevocationStep → Option RevocationState
  | .authenticate username password =>
    -- the call is late if its pair is revoked when it starts
    some { s with
      auths := s.auths ++ [⟨username, password, .lookup, s.revoked username password⟩] }
  | .advance i fails now =>
    (s.auths[i]?).map fun c =>
      let (service, pc) := c.pc.advance bc fails now c.username c.password s.service
      { s with service := service, auths := s.auths.set i { c with pc := pc } }
  | .change c => some { s with changes := s.changes ++ [⟨c, .write⟩] }
  | .write j fails =>
    match s.changes[j]? with
    | some ⟨c, .write⟩ =>
      match if fails then none else c.write bc s.service with
      | none => some { s with changes := s.changes.set j ⟨c, .failed⟩ }
      | some users =>
        let pc := match c.target with
          | none => .returned
          | some id => .clear (s.service.users.revokes bc users id)
        let s' := s.commit bc users
        some { s' with changes := s'.changes.set j ⟨c, pc⟩ }
    | _ => none
  | .clear j =>
    match s.changes[j]? with
    | some ⟨c, .clear revokes⟩ =>
      -- the cache is cleared and the change returns: what it revokes is revoked from here on
      some { s with
        service := s.service.cacheClear
        changes := s.changes.set j ⟨c, .returned⟩
        revoked := fun n p => s.revoked n p || revokes n p }
    | _ => none

end RevocationState

/-- Calls and changes in any interleaving, on any database, with an empty cache at the start. -/
def revocationSystem (bc : Bcrypt) : System RevocationState RevocationStep where
  init s := ∃ users mountpoints bindings,
    s = ⟨Service.new users mountpoints bindings, [], [], fun _ _ => false⟩
  step s a := s.step bc a

/-- The pairs that concatenate to a cache key. -/
def keySplits (key : Bytes) : List (Bytes × Bytes) :=
  (List.range key.length).filterMap fun i =>
    if (key.drop i).take 1 = ascii ":" then some (key.take i, key.drop (i + 1)) else none

theorem mem_keySplits (username password : Bytes) :
    (username, password) ∈ keySplits (cacheKey username password) := by
  refine List.mem_filterMap.mpr ⟨username.length, ?_, ?_⟩
  · simp [cacheKey, ascii]
  · -- the colon that `cacheKey` puts in
    have hcolon : cacheKey username password = username ++ (58 :: password) := by
      simp [cacheKey, ascii]
    simp [hcolon, ascii]

/-- The cache key a step stores a result under, if it does. -/
def RevocationState.storeKey? (s : RevocationState) : RevocationStep → Option Bytes
  | .advance i _ _ =>
    match s.auths[i]? with
    | some ⟨username, password, .store _, _⟩ => some (cacheKey username password)
    | _ => none
  | _ => none

/-- The condition on a step: if it stores a result, no pair with the same cache key is
revoked. -/
def StoresNothingRevoked (s : RevocationState) (a : RevocationStep) : Prop :=
  ∀ key ∈ s.storeKey? a, ∀ q ∈ keySplits key, s.revoked q.1 q.2 = false

instance (s : RevocationState) (a : RevocationStep) : Decidable (StoresNothingRevoked s a) :=
  inferInstanceAs (Decidable (∀ key ∈ s.storeKey? a, ∀ q ∈ keySplits key,
    s.revoked q.1 q.2 = false))

/-! ## Revoked pairs stay rejected -/

namespace AuthPC

/-- A call at this point returns nil, as long as the database rejects its pair and the cache
does not hold it. -/
def Rejected (bc : Bcrypt) (password : Bytes) : AuthPC → Prop
  | .lookup => True
  | .read => True
  | .compare u => bc.compareHashAndPassword u.passwordHash password = false
  | .store _ => False
  | .done r => ∀ u, r ≠ .ok (some u)

variable (bc : Bcrypt) (fails : Query → Bool) (now : ℤ) (username password : Bytes) (s : Service)

/-- A step of a call changes nothing but the cache, and that only to store its result. -/
theorem advance_service (pc : AuthPC) :
    (pc.advance bc fails now username password s).1 = s ∨
      ∃ u, pc = .store u ∧ (pc.advance bc fails now username password s).1 =
        s.cacheStore (cacheKey username password) u now := by
  cases pc with
  | lookup =>
    left
    simp only [advance]
    split <;> rfl
  | read =>
    left
    simp only [advance]
    split
    · rfl
    · rfl
    · split_ifs <;> rfl
  | compare u =>
    left
    simp only [advance]
    split_ifs <;> rfl
  | store u => exact .inr ⟨u, rfl, rfl⟩
  | done r => exact .inl rfl

theorem advance_users (pc : AuthPC) :
    (pc.advance bc fails now username password s).1.users = s.users := by
  rcases advance_service bc fails now username password s pc with h | ⟨u, -, h⟩
  · rw [h]
  · rw [h]
    rfl

variable {bc fails now username password s}

/-- A rejected call stays rejected while the database rejects its pair. -/
theorem Rejected.advance {pc : AuthPC} (h : pc.Rejected bc password)
    (hcache : s.authCache.lookup (cacheKey username password) = none)
    (hdb : s.users.accepts bc username password = false) :
    (pc.advance bc fails now username password s).2.Rejected bc password := by
  cases pc with
  | lookup => simp [AuthPC.advance, Service.cacheLookup, hcache, Rejected]
  | read =>
    unfold AuthPC.advance Service.getUserByName
    by_cases hf : fails (.userByName username)
    · simp [hf, Rejected]
    · simp only [hf, Bool.false_eq_true, if_false]
      unfold UserTable.accepts at hdb
      cases hrow : (s.users.byName username).map UserRow.scan with
      | none => simp [Rejected]
      | some u =>
        by_cases hen : u.enabled
        · -- an enabled user whom the database rejects has another hash
          have hcmp : bc.compareHashAndPassword u.passwordHash password = false := by
            rw [hrow] at hdb
            simpa [Service.checkUser, hen] using hdb
          simpa [hen, Rejected] using hcmp
        · simp [hen, Rejected]
  | compare u =>
    have hcmp : bc.compareHashAndPassword u.passwordHash password = false := h
    simp [AuthPC.advance, hcmp, Rejected]
  | store u => exact h.elim
  | done r => exact h

end AuthPC

namespace RevocationState

/-- The database rejects every revoked pair, the cache does not hold it, and the calls that
started late return nil. -/
structure Final (bc : Bcrypt) (s : RevocationState) : Prop where
  revoked_rejected : ∀ n p, s.revoked n p = true → s.service.users.accepts bc n p = false
  revoked_uncached : ∀ n p, s.revoked n p = true →
    s.service.authCache.lookup (cacheKey n p) = none
  pending_rejected : ∀ c ∈ s.changes, ∀ revokes, c.pc = .clear revokes →
    ∀ n p, revokes n p = true → s.service.users.accepts bc n p = false
  late_revoked : ∀ c ∈ s.auths, c.late = true → s.revoked c.username c.password = true
  late_rejected : ∀ c ∈ s.auths, c.late = true → c.pc.Rejected bc c.password

variable {bc : Bcrypt} {s : RevocationState}

theorem Final.init (users : UserTable) (mountpoints : List MountPointRow)
    (bindings : List BindingRow) :
    Final bc ⟨Service.new users mountpoints bindings, [], [], fun _ _ => false⟩ where
  revoked_rejected n p h := by simp at h
  revoked_uncached n p h := by simp at h
  pending_rejected c hc := by simp at hc
  late_revoked c hc := by simp at hc
  late_rejected c hc := by simp at hc

theorem Final.authenticate (h : s.Final bc) (username password : Bytes) :
    Final bc { s with
      auths := s.auths ++ [⟨username, password, .lookup, s.revoked username password⟩] } where
  revoked_rejected := h.revoked_rejected
  revoked_uncached := h.revoked_uncached
  pending_rejected := h.pending_rejected
  late_revoked := by
    intro c hc hlate
    rcases List.mem_append.mp hc with hc | hc
    · exact h.late_revoked c hc hlate
    · obtain rfl := List.mem_singleton.mp hc
      exact hlate
  late_rejected := by
    intro c hc hlate
    rcases List.mem_append.mp hc with hc | hc
    · exact h.late_rejected c hc hlate
    · obtain rfl := List.mem_singleton.mp hc
      -- `Rejected` asks nothing of a call at its lookup
      trivial

/-- A step of a call that stores nothing under the key of a revoked pair. -/
theorem Final.advance (h : s.Final bc) {i : ℕ} {c : AuthCall} (hc : s.auths[i]? = some c)
    (hguard : ∀ u, c.pc = .store u →
      ∀ q ∈ keySplits (cacheKey c.username c.password), s.revoked q.1 q.2 = false)
    (fails : Query → Bool) (now : ℤ) :
    let x := c.pc.advance bc fails now c.username c.password s.service
    Final bc { s with service := x.1, auths := s.auths.set i { c with pc := x.2 } } := by
  intro x
  have hmem : c ∈ s.auths := List.mem_of_getElem? hc
  have husers : x.1.users = s.service.users := AuthPC.advance_users _ _ _ _ _ _ c.pc
  constructor
  · intro n p hrev
    rw [husers]
    exact h.revoked_rejected n p hrev
  · intro n p hrev
    rcases AuthPC.advance_service bc fails now c.username c.password s.service c.pc with
      hx | ⟨u, hu, hx⟩
    · show x.1.authCache.lookup _ = none
      rw [show x.1 = s.service from hx]
      exact h.revoked_uncached n p hrev
    · show x.1.authCache.lookup _ = none
      rw [show x.1 = _ from hx]
      -- the pair is revoked, so its key is not the one that is stored under
      have hne : cacheKey n p ≠ cacheKey c.username c.password := by
        intro heq
        have hfree := hguard u hu (n, p) (heq ▸ mem_keySplits n p)
        rw [hrev] at hfree
        exact absurd hfree (by decide)
      exact (AList.lookup_insert_ne hne).trans (h.revoked_uncached n p hrev)
  · intro d hd revokes hpc n p hrev
    rw [husers]
    exact h.pending_rejected d hd revokes hpc n p hrev
  · intro d hd hlate
    rcases List.mem_or_eq_of_mem_set hd with hd | rfl
    · exact h.late_revoked d hd hlate
    · exact h.late_revoked c hmem hlate
  · -- for the call itself the cache misses and the database rejects
    intro d hd hlate
    rcases List.mem_or_eq_of_mem_set hd with hd | rfl
    · exact h.late_rejected d hd hlate
    · have hrev := h.late_revoked c hmem hlate
      exact (h.late_rejected c hmem hlate).advance (h.revoked_uncached _ _ hrev)
        (h.revoked_rejected _ _ hrev)

theorem Final.change (h : s.Final bc) (c : Change) :
    Final bc { s with changes := s.changes ++ [⟨c, .write⟩] } where
  revoked_rejected := h.revoked_rejected
  revoked_uncached := h.revoked_uncached
  pending_rejected := by
    intro d hd revokes hpc
    rcases List.mem_append.mp hd with hd | hd
    · exact h.pending_rejected d hd revokes hpc
    · obtain rfl := List.mem_singleton.mp hd
      cases hpc
  late_revoked := h.late_revoked
  late_rejected := h.late_rejected

/-- Any table may be written: what it accepts is no longer revoked. -/
theorem Final.commit (h : s.Final bc) (users : UserTable) : (s.commit bc users).Final bc where
  revoked_rejected := by
    intro n p hrev
    simpa [RevocationState.commit] using (Bool.and_eq_true_iff.mp hrev).2
  revoked_uncached := by
    intro n p hrev
    exact h.revoked_uncached n p (Bool.and_eq_true_iff.mp hrev).1
  pending_rejected := by
    intro d hd revokes hpc n p hrev
    obtain ⟨c, hc, rfl⟩ := List.mem_map.mp hd
    unfold recheck at hpc
    split at hpc
    · cases hpc
      simpa [RevocationState.commit] using (Bool.and_eq_true_iff.mp hrev).2
    next hne => exact (hne revokes hpc).elim
  late_revoked := by
    intro d hd hlate
    obtain ⟨c, hc, rfl⟩ := List.mem_map.mp hd
    obtain ⟨hl, hacc⟩ := Bool.and_eq_true_iff.mp hlate
    exact Bool.and_eq_true_iff.mpr ⟨h.late_revoked c hc hl, hacc⟩
  late_rejected := by
    intro d hd hlate
    obtain ⟨c, hc, rfl⟩ := List.mem_map.mp hd
    exact h.late_rejected c hc (Bool.and_eq_true_iff.mp hlate).1

/-- A change moves on; if it is to clear the cache, the database rejects what it revokes. -/
theorem Final.setChange (h : s.Final bc) (j : ℕ) (c : ChangeCall)
    (hc : ∀ revokes, c.pc = .clear revokes →
      ∀ n p, revokes n p = true → s.service.users.accepts bc n p = false) :
    Final bc { s with changes := s.changes.set j c } where
  revoked_rejected := h.revoked_rejected
  revoked_uncached := h.revoked_uncached
  pending_rejected := by
    intro d hd revokes hpc
    rcases List.mem_or_eq_of_mem_set hd with hd | rfl
    · exact h.pending_rejected d hd revokes hpc
    · exact hc revokes hpc
  late_revoked := h.late_revoked
  late_rejected := h.late_rejected

/-- The cache is cleared and what a change revokes is revoked. -/
theorem Final.clear (h : s.Final bc) {revokes : Bytes → Bytes → Bool}
    (hrej : ∀ n p, revokes n p = true → s.service.users.accepts bc n p = false) :
    Final bc { s with
      service := s.service.cacheClear
      revoked := fun n p => s.revoked n p || revokes n p } where
  revoked_rejected := by
    intro n p hrev
    rcases Bool.or_eq_true_iff.mp hrev with hrev | hrev
    · exact h.revoked_rejected n p hrev
    · exact hrej n p hrev
  revoked_uncached := fun n p _ => AList.lookup_empty _
  pending_rejected := h.pending_rejected
  late_revoked := fun c hc hlate => Bool.or_eq_true_iff.mpr (.inl (h.late_revoked c hc hlate))
  late_rejected := h.late_rejected

/-- Every step that meets the condition keeps revoked pairs rejected. -/
theorem Final.step (h : s.Final bc) {a : RevocationStep} {s' : RevocationState}
    (hguard : StoresNothingRevoked s a) (hs : s.step bc a = some s') : s'.Final bc := by
  cases a with
  | authenticate username password => exact Option.some.inj hs ▸ h.authenticate username password
  | advance i fails now =>
    obtain ⟨c, hc, rfl⟩ := Option.map_eq_some_iff.mp hs
    refine h.advance hc (fun u hu => ?_) fails now
    -- the condition is about the pair of this very call
    obtain ⟨username, password, pc, late⟩ := c
    obtain rfl : pc = .store u := hu
    exact hguard _ (by simp [storeKey?, hc])
  | change c => exact Option.some.inj hs ▸ h.change c
  | write j fails =>
    simp only [RevocationState.step] at hs
    split at hs
    next c hc =>
      split at hs
      · obtain rfl := Option.some.inj hs
        exact h.setChange j _ fun revokes hpc => nomatch hpc
      next users hwrite =>
        -- the table is written; what the change is to revoke, the new table rejects
        obtain rfl := Option.some.inj hs
        refine (h.commit users).setChange j _ fun revokes hpc n p hrev => ?_
        cases htarget : c.target with
        | none => simp [htarget] at hpc
        | some id =>
          simp only [htarget, ChangePC.clear.injEq] at hpc
          subst hpc
          simpa [RevocationState.commit] using (Bool.and_eq_true_iff.mp hrev).2
    next => cases hs
  | clear j =>
    simp only [RevocationState.step] at hs
    split at hs
    next c revokes hc =>
      obtain rfl := Option.some.inj hs
      have hrej := h.pending_rejected _ (List.mem_of_getElem? hc) revokes rfl
      exact (h.clear hrej).setChange j ⟨c, .returned⟩ fun revokes hpc => nomatch hpc
    next => cases hs

end RevocationState

theorem revocationSystem_final {bc : Bcrypt} {s : RevocationState}
    (h : ((revocationSystem bc).restrict StoresNothingRevoked).Reachable s) : s.Final bc := by
  refine System.Reachable.restrict_invariant ?_ (fun s a s' _ hs hguard hstep => ?_) h
  · rintro s ⟨users, mountpoints, bindings, rfl⟩
    exact .init users mountpoints bindings
  · exact hs.step hguard hstep

/-- **Revocation is final** in every run in which no call stores its result under the cache key
of a revoked pair: a call that started after its pair was revoked, and before the pair was made
valid again, returns nil. -/
theorem revocation_final {bc : Bcrypt} {s : RevocationState}
    (h : ((revocationSystem bc).restrict StoresNothingRevoked).Reachable s) {c : AuthCall}
    (hc : c ∈ s.auths) (hlate : c.late = true) {r : Except AccountError (Option User)}
    (hr : c.pc = .done r) (u : User) : r ≠ .ok (some u) := by
  have hrej := (revocationSystem_final h).late_rejected c hc hlate
  rw [hr] at hrej
  exact hrej u

/-- The user `u` is created with the password `p`. -/
def createU : List RevocationStep :=
  [.change (.createUser [] (ascii "u") (ascii "p") roleRover), .write 0 false]

/-- The user `u` is disabled. -/
def disableU : List RevocationStep :=
  [.change (.updateUser 1 roleRover false), .write 1 false, .clear 1]

/-- A new service, with nobody in its tables. -/
def noAccounts : RevocationState := ⟨Service.new .empty [] [], [], [], fun _ _ => false⟩

/-- A call stores its result while `u` is being disabled, the next one finds it, and then the cache
is cleared; two more calls overlap. -/
def storedBeforeClear : List RevocationStep :=
  [.authenticate (ascii "u") (ascii "p"), .advance 0 noFault 0, .advance 0 noFault 0,
    .advance 0 noFault 0, .change (.updateUser 1 roleRover false), .write 1 false,
    .advance 0 noFault 0, .authenticate (ascii "u") (ascii "p"), .advance 1 noFault 1, .clear 1,
    .authenticate (ascii "u") (ascii "p"), .authenticate (ascii "u") (ascii "p"),
    .advance 2 noFault 2, .advance 3 noFault 2, .advance 3 noFault 2, .advance 2 noFault 2]

theorem revocation_final_disabled :
    ∃ s c d, ((revocationSystem plainBcrypt).restrict StoresNothingRevoked).Reachable s ∧
      s.auths[1]? = some d ∧ (∃ u, d.pc = .done (.ok (some u))) ∧
      s.auths[2]? = some c ∧ c.late = true ∧ c.pc = .done (.ok none) ∧
        ∀ u : User, (.ok none : Except AccountError (Option User)) ≠ .ok (some u) := by
  have hsome : (((revocationSystem plainBcrypt).restrict StoresNothingRevoked).run noAccounts
      (createU ++ storedBeforeClear)).isSome = true := rfl
  have hreach : ((revocationSystem plainBcrypt).restrict StoresNothingRevoked).Reachable
      (Option.get _ hsome) :=
    .of_run _ ⟨_, _, _, rfl⟩ (Option.some_get hsome).symm
  refine ⟨_, _, _, hreach, rfl, ⟨_, rfl⟩, rfl, rfl, rfl, ?_⟩
  have hmem := List.mem_of_getElem? (l := (Option.get _ hsome).auths) (i := 2) rfl
  exact revocation_final hreach hmem rfl rfl

/-- A call reads the row of `u`, `u` is disabled, and the call stores the row: the next call
with the old password succeeds. -/
theorem revocation_not_final :
    ¬ ∀ (bc : Bcrypt), bc.Correct → ∀ s, (revocationSystem bc).Reachable s →
      ∀ c ∈ s.auths, c.late = true → ∀ r, c.pc = .done r → ∀ u, r ≠ .ok (some u) := by
  intro h
  let steps := createU ++
    [.authenticate (ascii "u") (ascii "p"), .advance 0 noFault 0, .advance 0 noFault 0,
      .advance 0 noFault 0] ++ disableU ++
    [.advance 0 noFault 0, .authenticate (ascii "u") (ascii "p"), .advance 1 noFault 1]
  have hsome : ((revocationSystem plainBcrypt).run noAccounts steps).isSome = true := rfl
  have hreach : (revocationSystem plainBcrypt).Reachable (Option.get _ hsome) :=
    .of_run steps ⟨_, _, _, rfl⟩ (Option.some_get hsome).symm
  have hmem := List.mem_of_getElem? (l := (Option.get _ hsome).auths) (i := 1) rfl
  exact h plainBcrypt plainBcrypt_correct _ hreach _ hmem rfl _ rfl _ rfl

end NtripCaster
