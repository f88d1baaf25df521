import NtripCaster.Api.Handlers
import NtripCaster.Library.Chain

/-!
# Failed admin requests

A handler makes its writes one after the other and returns at the first that fails; nothing takes
back those before it. So a failed request leaves everything as it is after the writes that precede
the failing one, in the order of the handler: this order is what the handlers differ in.

## Main definitions

* `AdminRequest`, `Handlers.answer`: the requests and the handlers that answer them
* `Write`, `Handlers.writes`: the writes of a request, in order
* `AdminRequest.switches`: the requests that switch an account or a mountpoint

## Main results

* `Handlers.answer_eq`: a handler is the chain of its writes
* `failed_request`: what a failed request leaves behind
* `failed_request_not_undone`: a row that stays behind for a mountpoint that was not created
-/

namespace NtripCaster

/-- A request that changes users or mountpoints; an id or a body that does not parse is `none`. -/
inductive AdminRequest
  | updateUser (id : Option ℤ) (body : Option UpdateUserRequest)
  | deleteUser (id : Option ℤ)
  | createMountpoint (body : Option CreateMountpointRequest)
  | updateMountpoint (id : Option ℤ) (body : Option UpdateMountpointRequest)
  | deleteMountpoint (id : Option ℤ)
  deriving DecidableEq, Repr

/-- A write of a handler: a call of the account service, or of the registry. -/
inductive Write
  | updateUser (id : ℤ) (role : Bytes) (enabled : Bool)
  | updatePassword (id : ℤ) (password : Bytes)
  | disconnectUser (id : ℤ)
  | deleteUser (id : ℤ)
  | createMountPointRow (name description format : Bytes)
  | setMountPointSourceSecret (id : ℤ) (secret : Bytes)
  | setMountPointMaxClients (id maxClients : ℤ)
  | updateMountPointRow (id : ℤ) (description format : Bytes) (enabled : Bool)
  | deleteMountPointRow (id : ℤ)
  | create (req : CreateMountpointRequest)
  | update (row : MountPointRow) (req : UpdateMountpointRequest)
  | delete (row : MountPointRow)

namespace Write

/-- The write is one to the tables. -/
def isRow : Write → Bool
  | disconnectUser _ | create _ | update .. | delete _ => false
  | _ => true

/-- The write is the insertion of a row. -/
def isInsert : Write → Bool
  | createMountPointRow .. => true
  | _ => false

/-- The write, made. -/
def run (bc : Bcrypt) (cfg : MountpointDefaultsConfig) (env : AdminEnv) (w : Write)
    (h : Handlers) : Except AdminError Handlers :=
  let store (r : Except AdminError AcctSvc) : Except AdminError Handlers :=
    r.map fun svc => { h with acctSvc := svc }
  match w with
  | updateUser id role enabled => store (h.acctSvc.updateUser env.fails id role enabled)
  | updatePassword id password =>
    store (h.acctSvc.updatePassword bc env.fails env.salt id password)
  | disconnectUser id => .ok (h.disconnectUser env id)
  | deleteUser id => store (h.acctSvc.deleteUser env.fails id)
  | createMountPointRow name description format =>
    store ((h.acctSvc.createMountPointRow env.fails name description format).map Prod.fst)
  | setMountPointSourceSecret id secret =>
    store (h.acctSvc.setMountPointSourceSecret bc env.fails env.salt id secret)
  | setMountPointMaxClients id maxClients =>
    store (h.acctSvc.setMountPointMaxClients env.fails id maxClients)
  | updateMountPointRow id description format enabled =>
    store (h.acctSvc.updateMountPointRow env.fails id description format enabled)
  | deleteMountPointRow id => store (h.acctSvc.deleteMountPointRow env.fails id)
  | create req => .ok (h.createInMemory cfg req)
  | update row req => .ok (h.updateInMemory cfg env row req)
  | delete row => .ok (h.deleteInMemory env row)

end Write

/-- The request deletes. -/
def AdminRequest.deletes : AdminRequest → Bool
  | deleteUser _ | deleteMountpoint _ => true
  | _ => false

/-- A write that is made on a condition. -/
def Write.when (p : Prop) [Decidable p] (w : Write) : List Write := if p then [w] else []

/-- A write that is made for a field that the body has. -/
def Write.given {α : Type} (o : Option α) (w : α → Write) : List Write := o.elim [] fun a => [w a]

namespace AcctSvc

variable {bc : Bcrypt} {fails : Statement → Bool} {s s' : AcctSvc} {id : ℤ} {e : AdminError}

/-- A new row has the next id. -/
theorem createMountPointRow_id {name description format : Bytes}
    (h : s.createMountPointRow fails name description format = .ok (s', id)) :
    id = s.mountpoints.seq + 1 := by
  obtain ⟨_, hcreate, -⟩ := createMountPointRow_ok h
  exact Tables.Table.id_of_insert hcreate

theorem eq_of_ite_error {α : Type} {p : Prop} [Decidable p] {e' : AdminError} {a : α}
    (h : (if p then .error e' else .ok a : Except AdminError α) = .error e) : e = e' := by
  split at h
  · exact (Except.error.inj h).symm
  · cases h

theorem updatePassword_error {salt password : Bytes}
    (h : s.updatePassword bc fails salt id password = .error e) : e.status = 500 := by
  unfold updatePassword at h
  split at h
  · exact Except.error.inj h ▸ rfl
  · exact eq_of_ite_error h ▸ rfl

theorem setMountPointSourceSecret_error {salt secret : Bytes}
    (h : s.setMountPointSourceSecret bc fails salt id secret = .error e) : e.status = 500 := by
  unfold setMountPointSourceSecret at h
  split at h
  · exact eq_of_ite_error h ▸ rfl
  · split at h
    · exact Except.error.inj h ▸ rfl
    · exact eq_of_ite_error h ▸ rfl

end AcctSvc

namespace Handlers

variable (bc : Bcrypt) (cfg : MountpointDefaultsConfig) (env : AdminEnv) (h : Handlers)

/-- The handler of a request. -/
def answer : AdminRequest → Handlers × Except AdminError Unit
  | .updateUser id body => h.updateUser bc env id body
  | .deleteUser id => h.deleteUser env id
  | .createMountpoint body => h.createMountpoint bc cfg env body
  | .updateMountpoint id body => h.updateMountpoint bc cfg env id body
  | .deleteMountpoint id => h.deleteMountpoint env id

/-- The writes of a request, in the order of its handler, or the error of a check before them. -/
def writes : AdminRequest → Except AdminError (List Write)
  | .updateUser none _ | .deleteUser none => .error .invalidUserID
  | .updateUser (some id) (some req) =>
    match h.acctSvc.getUser env.fails id with
    | none => .error .userNotFound
    | some user =>
      .ok (.updateUser id (req.roleFor user) (req.enabledFor user) ::
        Write.when (req.password ≠ []) (.updatePassword id req.password) ++
        Write.when (user.enabled && !req.enabledFor user) (.disconnectUser id))
  | .deleteUser (some id) => .ok [.disconnectUser id, .deleteUser id]
  | .createMountpoint (some req) =>
    if req.name = [] then .error .nameRequired
    else
      .ok (.createMountPointRow req.name req.description req.formatOrDefault ::
        Write.when (req.sourceSecret ≠ [])
          (.setMountPointSourceSecret (h.acctSvc.mountpoints.seq + 1) req.sourceSecret) ++
        Write.when (0 < req.maxClients)
          (.setMountPointMaxClients (h.acctSvc.mountpoints.seq + 1) req.maxClients) ++
        [.create req])
  | .updateMountpoint none _ | .deleteMountpoint none => .error .invalidMountpointID
  | .updateMountpoint (some id) (some req) =>
    match h.acctSvc.getMountPointRowByID env.fails id with
    | none => .error .mountpointNotFound
    | some row =>
      .ok (.updateMountPointRow id (req.descriptionFor row) (req.formatFor row)
          (req.enabledFor row) ::
        Write.given req.maxClients (.setMountPointMaxClients id) ++
        Write.given req.sourceSecret (.setMountPointSourceSecret id) ++
        [.update row req])
  | .deleteMountpoint (some id) =>
    match h.acctSvc.getMountPointRowByID env.fails id with
    | none => .error .mountpointNotFound
    | some row => .ok [.delete row, .deleteMountPointRow id]
  | .updateUser (some _) none | .createMountpoint none | .updateMountpoint (some _) none =>
    .error .invalidRequestBody

/-! ## Handlers as chains -/

variable {bc cfg env h}

/-- The writes of a request, or its refusal. -/
def chain (bc : Bcrypt) (cfg : MountpointDefaultsConfig) (env : AdminEnv) (h : Handlers) :
    Except AdminError (List Write) → Handlers × Except AdminError Unit
  | .error e => (h, .error e)
  | .ok ws => Chain.run (Write.run bc cfg env) ws h

/-- How a handler goes on after a call of the account service. -/
def proceed (h : Handlers) (r : Except AdminError AcctSvc)
    (next : Handlers → Handlers × Except AdminError Unit) : Handlers × Except AdminError Unit :=
  match r with
  | .error e => (h, .error e)
  | .ok svc => next { h with acctSvc := svc }

/-- A chain that starts with a write to the tables. -/
theorem run_cons {w : Write} {r : Except AdminError AcctSvc} (ws : List Write)
    (hw : w.run bc cfg env h = r.map fun svc => { h with acctSvc := svc }) :
    Chain.run (Write.run bc cfg env) (w :: ws) h =
      h.proceed r (Chain.run (Write.run bc cfg env) ws) := by
  cases r with
  | error e => exact Chain.run_cons_error hw
  | ok svc => exact Chain.run_cons_ok hw

/-- A chain that starts with a write on a condition. -/
theorem run_when {p : Prop} [Decidable p] {w : Write} {r : Except AdminError AcctSvc}
    (ws : List Write) (hw : w.run bc cfg env h = r.map fun svc => { h with acctSvc := svc }) :
    Chain.run (Write.run bc cfg env) (Write.when p w ++ ws) h =
      h.proceed (if p then r else .ok h.acctSvc) (Chain.run (Write.run bc cfg env) ws) := by
  by_cases hp : p
  · rw [Write.when, if_pos hp, if_pos hp]
    exact run_cons ws hw
  · rw [Write.when, if_neg hp, if_neg hp]
    rfl

/-- A chain that starts with a write for a field. -/
theorem run_given {α : Type} {o : Option α} {w : α → Write} {r : α → Except AdminError AcctSvc}
    (ws : List Write)
    (hw : ∀ a, (w a).run bc cfg env h = (r a).map fun svc => { h with acctSvc := svc }) :
    Chain.run (Write.run bc cfg env) (Write.given o w ++ ws) h =
      h.proceed (o.elim (.ok h.acctSvc) r) (Chain.run (Write.run bc cfg env) ws) := by
  cases o with
  | none => rfl
  | some a => exact run_cons ws (hw a)

theorem updateUser_eq (id : ℤ) (req : UpdateUserRequest) :
    h.updateUser bc env (some id) (some req) =
      h.chain bc cfg env (h.writes env (.updateUser (some id) (some req))) := by
  simp only [updateUser, writes]
  cases h.acctSvc.getUser env.fails id with
  | none => rfl
  | some user =>
    simp only [chain, List.cons_append]
    rw [run_cons _ rfl]
    cases h.acctSvc.updateUser env.fails id (req.roleFor user) (req.enabledFor user) with
    | error e => rfl
    | ok svc =>
      simp only [proceed]
      rw [run_when _ rfl]
      cases (if req.password ≠ [] then svc.updatePassword bc env.fails env.salt id req.password
        else .ok svc) with
      | error e => rfl
      | ok svc =>
        simp only [proceed, Write.when]
        split <;> rfl

theorem deleteUser_eq (id : ℤ) :
    h.deleteUser env (some id) = h.chain bc cfg env (h.writes env (.deleteUser (some id))) := by
  simp only [deleteUser, writes, chain]
  rw [Chain.run_cons_ok rfl, run_cons _ rfl]
  cases (h.disconnectUser env id).acctSvc.deleteUser env.fails id <;> rfl

/-- The handler is the chain of its writes: row, secret, limit, memory. -/
theorem createMountpoint_eq (req : CreateMountpointRequest) :
    h.createMountpoint bc cfg env (some req) =
      h.chain bc cfg env (h.writes env (.createMountpoint (some req))) := by
  simp only [createMountpoint, writes]
  by_cases hname : req.name = []
  · rw [if_pos hname, if_pos hname]
    rfl
  rw [if_neg hname, if_neg hname]
  simp only [chain, List.cons_append, List.append_assoc]
  rw [run_cons _ rfl]
  cases hcreate : h.acctSvc.createMountPointRow env.fails req.name req.description
      req.formatOrDefault with
  | error e => rfl
  | ok created =>
    obtain ⟨svc, id⟩ := created
    obtain rfl := AcctSvc.createMountPointRow_id hcreate
    simp only [proceed, Except.map]
    rw [run_when _ rfl]
    cases (if req.sourceSecret ≠ [] then svc.setMountPointSourceSecret bc env.fails env.salt
        (h.acctSvc.mountpoints.seq + 1) req.sourceSecret else .ok svc) with
    | error e => rfl
    | ok svc =>
      simp only [proceed]
      rw [run_when _ rfl]
      cases (if 0 < req.maxClients then svc.setMountPointMaxClients env.fails
          (h.acctSvc.mountpoints.seq + 1) req.maxClients else .ok svc) <;> rfl

theorem updateMountpoint_eq (id : ℤ) (req : UpdateMountpointRequest) :
    h.updateMountpoint bc cfg env (some id) (some req) =
      h.chain bc cfg env (h.writes env (.updateMountpoint (some id) (some req))) := by
  simp only [updateMountpoint, writes]
  cases h.acctSvc.getMountPointRowByID env.fails id with
  | none => rfl
  | some row =>
    simp only [chain, List.cons_append, List.append_assoc]
    rw [run_cons _ rfl]
    cases h.acctSvc.updateMountPointRow env.fails id (req.descriptionFor row)
        (req.formatFor row) (req.enabledFor row) with
    | error e => rfl
    | ok svc =>
      simp only [proceed]
      rw [run_given _ fun _ => rfl]
      cases req.maxClients.elim (.ok svc) (svc.setMountPointMaxClients env.fails id) with
      | error e => rfl
      | ok svc =>
        simp only [proceed]
        rw [run_given _ fun _ => rfl]
        cases req.sourceSecret.elim (.ok svc)
          (svc.setMountPointSourceSecret bc env.fails env.salt id) <;> rfl

theorem deleteMountpoint_eq (id : ℤ) :
    h.deleteMountpoint env (some id) =
      h.chain bc cfg env (h.writes env (.deleteMountpoint (some id))) := by
  simp only [deleteMountpoint, writes]
  cases h.acctSvc.getMountPointRowByID env.fails id with
  | none => rfl
  | some row =>
    simp only [chain]
    rw [Chain.run_cons_ok rfl, run_cons _ rfl]
    cases (h.deleteInMemory env row).acctSvc.deleteMountPointRow env.fails id <;> rfl

/-- A handler is the chain of its writes. -/
theorem answer_eq (req : AdminRequest) :
    h.answer bc cfg env req = h.chain bc cfg env (h.writes env req) := by
  cases req with
  | updateUser id body =>
    cases id with
    | none => rfl
    | some id =>
      cases body with
      | none => rfl
      | some req => exact updateUser_eq id req
  | deleteUser id =>
    cases id with
    | none => rfl
    | some id => exact deleteUser_eq id
  | createMountpoint body =>
    cases body with
    | none => rfl
    | some req => exact createMountpoint_eq req
  | updateMountpoint id body =>
    cases id with
    | none => rfl
    | some id =>
      cases body with
      | none => rfl
      | some req => exact updateMountpoint_eq id req
  | deleteMountpoint id =>
    cases id with
    | none => rfl
    | some id => exact deleteMountpoint_eq id

/-- An invariant of the writes of a request is one of its handler. -/
theorem answer_invariant {P : Handlers → Prop} {req : AdminRequest}
    (hkeep : ∀ ws, h.writes env req = .ok ws → ∀ w ∈ ws, ∀ t t', P t →
      w.run bc cfg env t = .ok t' → P t')
    (hP : P h) : P (h.answer bc cfg env req).1 := by
  rw [answer_eq]
  cases hws : h.writes env req with
  | error e => exact hP
  | ok ws => exact Chain.run_invariant (hkeep ws hws) hP

end Handlers

/-! ## The order of the writes -/

namespace Write

variable {bc : Bcrypt} {cfg : MountpointDefaultsConfig} {env : AdminEnv} {h h' : Handlers}
  {w : Write}

/-- The order of writes: an insertion comes first; a deletion disconnects before it writes to the
tables, and any other request writes to the tables first. -/
def Precedes (deletes : Bool) (w w' : Write) : Prop :=
  w'.isInsert = false ∧
    if deletes then w.isRow = false else (w'.isRow = true → w.isRow = true)

theorem of_map_ok {α β : Type} {f : α → β} {r : Except AdminError α} {b : β}
    (hr : r.map f = .ok b) : ∃ a, r = .ok a ∧ f a = b := by
  cases r with
  | error e => cases hr
  | ok a => exact ⟨a, rfl, Except.ok.inj hr⟩

theorem of_map_error {α β : Type} {f : α → β} {r : Except AdminError α} {e : AdminError}
    (hr : r.map f = .error e) : r = .error e := by
  cases r with
  | error e' => exact congrArg Except.error (Except.error.inj hr)
  | ok a => cases hr

/-- A write to the tables leaves the registry and the connections alone. -/
theorem run_row (hw : w.isRow = true) (hrun : w.run bc cfg env h = .ok h') :
    h'.mgr = h.mgr ∧ h'.conns = h.conns := by
  cases w with
  | disconnectUser id => cases hw
  | create req => cases hw
  | update row req => cases hw
  | delete row => cases hw
  | _ =>
    obtain ⟨svc, -, rfl⟩ := of_map_ok hrun
    exact ⟨rfl, rfl⟩

/-- A call of the registry leaves the tables alone. -/
theorem run_live (hw : w.isRow = false) (hrun : w.run bc cfg env h = .ok h') :
    h'.acctSvc = h.acctSvc := by
  cases w with
  | disconnectUser id => exact Except.ok.inj hrun ▸ rfl
  | create req => exact Except.ok.inj hrun ▸ h.ignoreError_acctSvc _
  | update row req => exact Except.ok.inj hrun ▸ h.ignoreError_acctSvc _
  | delete row => exact Except.ok.inj hrun ▸ h.ignoreError_acctSvc _
  | _ => cases hw

/-- Only writes to the tables fail, and all but an insertion with status 500. -/
theorem run_error {e : AdminError} (hrun : w.run bc cfg env h = .error e) :
    w.isRow = true ∧ (w.isInsert = true ∨ e.status = 500) := by
  cases w with
  | disconnectUser id => cases hrun
  | create req => cases hrun
  | update row req => cases hrun
  | delete row => cases hrun
  | createMountPointRow name description format => exact ⟨rfl, .inl rfl⟩
  | updateUser id role enabled =>
    exact ⟨rfl, .inr (AcctSvc.eq_of_ite_error (of_map_error hrun) ▸ rfl)⟩
  | updatePassword id password =>
    exact ⟨rfl, .inr (AcctSvc.updatePassword_error (of_map_error hrun))⟩
  | deleteUser id => exact ⟨rfl, .inr (AcctSvc.eq_of_ite_error (of_map_error hrun) ▸ rfl)⟩
  | setMountPointSourceSecret id secret =>
    exact ⟨rfl, .inr (AcctSvc.setMountPointSourceSecret_error (of_map_error hrun))⟩
  | setMountPointMaxClients id maxClients =>
    exact ⟨rfl, .inr (AcctSvc.eq_of_ite_error (of_map_error hrun) ▸ rfl)⟩
  | updateMountPointRow id description format enabled =>
    exact ⟨rfl, .inr (AcctSvc.eq_of_ite_error (of_map_error hrun) ▸ rfl)⟩
  | deleteMountPointRow id =>
    exact ⟨rfl, .inr (AcctSvc.eq_of_ite_error (of_map_error hrun) ▸ rfl)⟩

end Write

namespace Handlers

variable {env : AdminEnv} {h : Handlers}

/-- The writes of a request are in order. -/
theorem writes_order {req : AdminRequest} {ws : List Write} (hws : h.writes env req = .ok ws) :
    ws.Pairwise (Write.Precedes req.deletes) := by
  cases req with
  | updateUser id body =>
    cases id <;> cases body <;> try cases hws
    simp only [writes] at hws
    split at hws
    · cases hws
    · obtain rfl := Except.ok.inj hws
      unfold Write.when
      split_ifs <;> simp [Write.Precedes, Write.isRow, Write.isInsert, AdminRequest.deletes]
  | deleteUser id =>
    cases id <;> cases hws
    simp [Write.Precedes, Write.isRow, Write.isInsert, AdminRequest.deletes]
  | createMountpoint body =>
    cases body <;> try cases hws
    simp only [writes] at hws
    split at hws
    · cases hws
    · obtain rfl := Except.ok.inj hws
      unfold Write.when
      split_ifs <;> simp [Write.Precedes, Write.isRow, Write.isInsert, AdminRequest.deletes]
  | updateMountpoint id body =>
    rcases id with _ | id <;> rcases body with _ | body <;> try cases hws
    simp only [writes] at hws
    split at hws
    · cases hws
    · obtain rfl := Except.ok.inj hws
      unfold Write.given
      cases body.maxClients <;> cases body.sourceSecret <;>
        simp [Write.Precedes, Write.isRow, Write.isInsert, AdminRequest.deletes]
  | deleteMountpoint id =>
    cases id <;> try cases hws
    simp only [writes] at hws
    split at hws
    · cases hws
    · obtain rfl := Except.ok.inj hws
      simp [Write.Precedes, Write.isRow, Write.isInsert, AdminRequest.deletes]

end Handlers

section

variable {bc : Bcrypt} {cfg : MountpointDefaultsConfig} {env : AdminEnv} {h h' : Handlers}
  {req : AdminRequest} {e : AdminError}

namespace Handlers

/-- A failed request was refused by a check, or has made the writes before the one that failed. -/
theorem answer_error (hans : h.answer bc cfg env req = (h', .error e)) :
    h' = h ∨ ∃ done w rest, h.writes env req = .ok (done ++ w :: rest) ∧
      Chain.run (Write.run bc cfg env) done h = (h', .ok ()) ∧ w.run bc cfg env h' = .error e := by
  rw [answer_eq] at hans
  cases hws : h.writes env req with
  | error e' =>
    rw [hws] at hans
    exact .inl (Prod.mk.inj hans).1.symm
  | ok ws =>
    rw [hws] at hans
    obtain ⟨done, w, rest, rfl, hdone, hfail⟩ := Chain.run_error hans
    exact .inr ⟨done, w, rest, rfl, hdone, hfail⟩

section Order

variable {done rest : List Write} {w : Write} (hws : h.writes env req = .ok (done ++ w :: rest))
  (hdone : Chain.run (Write.run bc cfg env) done h = (h', .ok ()))
  (hfail : w.run bc cfg env h' = .error e)

include hws in
/-- The writes before one of a request precede it. -/
theorem precedes_of_writes : ∀ x ∈ done, x.Precedes req.deletes w := fun x hx =>
  (List.pairwise_append.mp (writes_order hws)).2.2 x hx w List.mem_cons_self

include hws hdone hfail in
/-- With another status than 500 an insertion has failed, which has nothing before it. -/
theorem eq_of_status_ne (hne : e.status ≠ 500) : h' = h := by
  have hinsert : w.isInsert = true := (Write.run_error hfail).2.resolve_right hne
  cases done with
  | nil => exact (Prod.mk.inj hdone).1.symm
  | cons x done =>
    have hfirst := (precedes_of_writes hws x List.mem_cons_self).1
    rw [hinsert] at hfirst
    cases hfirst

include hws hdone in
/-- A request that deletes calls the registry first. -/
theorem acctSvc_of_deletes (hdel : req.deletes = true) : h'.acctSvc = h.acctSvc := by
  refine Chain.run_keeps (f := Handlers.acctSvc) (fun x hx s s' hrun => ?_) hdone
  have hx := (precedes_of_writes hws x hx).2
  rw [if_pos hdel] at hx
  exact Write.run_live hx hrun

include hws hdone hfail in
/-- Any other request writes to the tables first. -/
theorem live_of_not_deletes (hdel : req.deletes = false) :
    h'.mgr = h.mgr ∧ h'.conns = h.conns := by
  have hkeeps : ∀ x ∈ done, ∀ s s', x.run bc cfg env s = .ok s' →
      s'.mgr = s.mgr ∧ s'.conns = s.conns := by
    intro x hx s s' hrun
    have hx := (precedes_of_writes hws x hx).2
    rw [hdel, if_neg Bool.false_ne_true] at hx
    exact Write.run_row (hx (Write.run_error hfail).1) hrun
  exact ⟨Chain.run_keeps (fun x hx s s' hrun => (hkeeps x hx s s' hrun).1) hdone,
    Chain.run_keeps (fun x hx s s' hrun => (hkeeps x hx s s' hrun).2) hdone⟩

end Order

end Handlers

/-- The request disables an account, or stores another `enabled` in the row of a mountpoint: the
registry and the connections are to follow the tables then. -/
def AdminRequest.switches (env : AdminEnv) (h : Handlers) : AdminRequest → Bool
  | updateUser (some id) (some req) =>
    (h.acctSvc.getUser env.fails id).any fun user => user.enabled && !req.enabledFor user
  | updateMountpoint (some id) (some req) =>
    (h.acctSvc.getMountPointRowByID env.fails id).any fun row => row.isEnabled != req.enabledFor row
  | _ => false

/-- **A failed request has made the writes before the one that failed**, in the order of its
handler: if it is refused, with another status than 500, it has made none; if it is to delete, it
leaves the tables as they were; and otherwise it leaves the registry and the connections as they
were. Where the tables switch somebody off or on, only the tables are spoken of. -/
theorem failed_request (hans : h.answer bc cfg env req = (h', .error e)) :
    (e.status ≠ 500 → h' = h) ∧
      (req.deletes = true → h'.acctSvc = h.acctSvc) ∧
      (req.deletes = false → req.switches env h = false → h'.mgr = h.mgr ∧ h'.conns = h.conns) ∧
      (h' = h ∨ ∃ done w rest t, h.writes env req = .ok (done ++ w :: rest) ∧
        Chain.run (Write.run bc cfg env) done h = (t, .ok ()) ∧
        w.run bc cfg env t = .error e ∧ h'.acctSvc = t.acctSvc ∧
        (req.switches env h = false → h' = t)) := by
  rcases Handlers.answer_error hans with rfl | ⟨done, w, rest, hws, hdone, hfail⟩
  · exact ⟨fun _ => rfl, fun _ => rfl, fun _ _ => ⟨rfl, rfl⟩, .inl rfl⟩
  refine ⟨Handlers.eq_of_status_ne hws hdone hfail, Handlers.acctSvc_of_deletes hws hdone,
    fun hdel _ => Handlers.live_of_not_deletes hws hdone hfail hdel, .inr ?_⟩
  exact ⟨done, w, rest, h', hws, hdone, hfail, rfl, fun _ => rfl⟩

end

/-- A server with empty tables. -/
def emptyServer : Handlers := ⟨⟨.empty, .empty, ∅⟩, .new, ⟨[], []⟩⟩

/-- `POST /api/mountpoints` with a secret of 73 bytes. -/
def createWithLongSecret : AdminRequest :=
  .createMountpoint (some { name := ascii "M", sourceSecret := List.replicate 73 112 })

theorem failed_request_longSecret :
    ∃ h', emptyServer.answer plainBcrypt {} faultless createWithLongSecret =
        (h', .error .hashSourceSecret) ∧
      (AdminError.hashSourceSecret.status ≠ 500 → h' = emptyServer) ∧
      (createWithLongSecret.deletes = true → h'.acctSvc = emptyServer.acctSvc) ∧
      (createWithLongSecret.deletes = false →
        createWithLongSecret.switches faultless emptyServer = false →
        h'.mgr = emptyServer.mgr ∧ h'.conns = emptyServer.conns) ∧
      (h' = emptyServer ∨ ∃ done w rest t,
        emptyServer.writes faultless createWithLongSecret = .ok (done ++ w :: rest) ∧
        Chain.run (Write.run plainBcrypt {} faultless) done emptyServer = (t, .ok ()) ∧
        w.run plainBcrypt {} faultless t = .error .hashSourceSecret ∧ h'.acctSvc = t.acctSvc ∧
        (createWithLongSecret.switches faultless emptyServer = false → h' = t)) := by
  obtain ⟨h', hans⟩ : ∃ h', emptyServer.answer plainBcrypt {} faultless createWithLongSecret =
      (h', .error .hashSourceSecret) := ⟨_, rfl⟩
  exact ⟨h', hans, failed_request hans⟩

/-- bcrypt rejects the secret after the row of the mountpoint is inserted. -/
theorem failed_request_not_undone :
    ¬ ∀ (bc : Bcrypt) (cfg : MountpointDefaultsConfig) (env : AdminEnv) (h h' : Handlers)
        (req : AdminRequest) (e : AdminError),
      (∀ salt password, 72 < password.length → bc.generateFromPassword salt password = none) →
      h.answer bc cfg env req = (h', .error e) →
        h'.acctSvc.users = h.acctSvc.users ∧ h'.acctSvc.mountpoints = h.acctSvc.mountpoints ∧
          h'.mgr = h.mgr ∧ h'.conns = h.conns := by
  intro hall
  obtain ⟨h', hans, hrow⟩ : ∃ h', emptyServer.answer plainBcrypt {} faultless
        createWithLongSecret = (h', .error .hashSourceSecret) ∧
      h'.acctSvc.mountpoints.rows.map MountPointRow.name = [ascii "M"] := ⟨_, rfl, rfl⟩
  have hlong : ∀ salt password, 72 < password.length →
      plainBcrypt.generateFromPassword salt password = none :=
    fun _ _ hlen => if_neg (Nat.not_le.mpr hlen)
  rw [(hall plainBcrypt {} faultless emptyServer h' _ _ hlong hans).2.1] at hrow
  exact absurd hrow (by decide)

end NtripCaster
