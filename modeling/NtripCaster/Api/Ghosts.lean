import NtripCaster.Api.Restart

/-!
# Concurrent creations and deletions of mountpoints

`POST /api/mountpoints` inserts the row first and creates the mountpoint in memory last;
`DELETE /api/mountpoints/{id}` deletes it from memory first and the row last. Requests in progress
interleave between these statements and calls, whose errors in memory are ignored.

## Main definitions

* `MountpointCall`: a request with what it does next
* `MountpointCall.advance`: one statement or one call of the registry
* `ghostSystem`: requests in any interleaving
* `KeepsInStep`: the condition on a step

## Main results

* `createMountpoint_alone`, `deleteMountpoint_alone`: a request on its own is the handler
* `InStep.step`: what every step under the condition keeps
* `no_ghosts`: registry and table have the same names when all requests have returned, under the
  condition
* `ghost`: a mountpoint that is deleted while it is created
-/

namespace NtripCaster

open Tables Transition

/-- A request in progress, named by what it does next: the statements and calls of the two handlers
with what they have at hand. -/
inductive MountpointCall
  | insertRow (body : Option CreateMountpointRequest)
  | setSourceSecret (req : CreateMountpointRequest) (id : ℤ)
  | setMaxClients (req : CreateMountpointRequest) (id : ℤ)
  | createInMemory (req : CreateMountpointRequest) (id : ℤ)
  | readRow (id : Option ℤ)
  | deleteInMemory (row : MountPointRow)
  | deleteRow (row : MountPointRow)
  | returned (answer : Except AdminError Unit)

namespace MountpointCall

/-- One statement or call, with the local checks before it. -/
def advance (bc : Bcrypt) (cfg : MountpointDefaultsConfig) (env : AdminEnv) (h : Handlers) :
    MountpointCall → Handlers × MountpointCall
  | insertRow none => (h, returned (.error .invalidRequestBody))
  | insertRow (some req) =>
    if req.name = [] then (h, returned (.error .nameRequired))
    else
      match h.acctSvc.createMountPointRow env.fails req.name req.description
          req.formatOrDefault with
      | .error e => (h, returned (.error e))
      | .ok (svc, id) => ({ h with acctSvc := svc }, setSourceSecret req id)
  | setSourceSecret req id =>
    match
      if req.sourceSecret ≠ [] then
        h.acctSvc.setMountPointSourceSecret bc env.fails env.salt id req.sourceSecret
      else .ok h.acctSvc with
    | .error e => (h, returned (.error e))
    | .ok svc => ({ h with acctSvc := svc }, setMaxClients req id)
  | setMaxClients req id =>
    match
      if 0 < req.maxClients then h.acctSvc.setMountPointMaxClients env.fails id req.maxClients
      else .ok h.acctSvc with
    | .error e => (h, returned (.error e))
    | .ok svc => ({ h with acctSvc := svc }, createInMemory req id)
  | createInMemory req _ => (h.createInMemory cfg req, returned (.ok ()))
  | readRow none => (h, returned (.error .invalidMountpointID))
  | readRow (some id) =>
    match h.acctSvc.getMountPointRowByID env.fails id with
    | none => (h, returned (.error .mountpointNotFound))
    | some row => (h, deleteInMemory row)
  | deleteInMemory row => (h.deleteInMemory env row, deleteRow row)
  | deleteRow row =>
    match h.acctSvc.deleteMountPointRow env.fails row.id with
    | .error e => (h, returned (.error e))
    | .ok svc => ({ h with acctSvc := svc }, returned (.ok ()))
  | returned answer => (h, returned answer)

/-- Steps of one request with nothing going on beside it. -/
def alone (bc : Bcrypt) (cfg : MountpointDefaultsConfig) (env : AdminEnv) :
    ℕ → Handlers × MountpointCall → Handlers × MountpointCall
  | 0, p => p
  | n + 1, p => alone bc cfg env n (p.2.advance bc cfg env p.1)

/-- The request has answered. -/
def hasReturned : MountpointCall → Bool
  | returned _ => true
  | _ => false

/-- The row that the request has inserted and whose mountpoint it has not created yet. -/
def creating : MountpointCall → Option (ℤ × Bytes)
  | setSourceSecret req id | setMaxClients req id | createInMemory req id => some (id, req.name)
  | _ => none

/-- The row that the request has read and is about to delete. -/
def deleting : MountpointCall → Option MountPointRow
  | deleteInMemory row | deleteRow row => some row
  | _ => none

/-- The row whose mountpoint the request has deleted from memory. -/
def sweeping : MountpointCall → Option MountPointRow
  | deleteRow row => some row
  | _ => none

end MountpointCall

section Alone

variable (bc : Bcrypt) (cfg : MountpointDefaultsConfig) (env : AdminEnv) (h : Handlers)

theorem MountpointCall.alone_returned (n : ℕ) (answer : Except AdminError Unit) :
    alone bc cfg env n (h, returned answer) = (h, returned answer) := by
  induction n with
  | zero => rfl
  | succ n ih => exact ih

/-- On its own a request to create is the handler. -/
theorem createMountpoint_alone (body : Option CreateMountpointRequest) :
    MountpointCall.alone bc cfg env 4 (h, .insertRow body) =
      ((h.createMountpoint bc cfg env body).1,
        .returned (h.createMountpoint bc cfg env body).2) := by
  unfold Handlers.createMountpoint
  cases body with
  | none => rfl
  | some req =>
    rw [MountpointCall.alone]
    dsimp only [MountpointCall.advance]
    split
    next => exact MountpointCall.alone_returned ..
    next =>
      cases h.acctSvc.createMountPointRow env.fails req.name req.description
          req.formatOrDefault with
      | error e => exact MountpointCall.alone_returned ..
      | ok p =>
        rw [MountpointCall.alone]
        dsimp only [MountpointCall.advance]
        generalize (if req.sourceSecret ≠ [] then
          p.1.setMountPointSourceSecret bc env.fails env.salt p.2 req.sourceSecret
            else .ok p.1) = written
        cases written with
        | error e => exact MountpointCall.alone_returned ..
        | ok svc =>
          rw [MountpointCall.alone]
          dsimp only [MountpointCall.advance]
          generalize (if 0 < req.maxClients then svc.setMountPointMaxClients env.fails p.2
            req.maxClients else .ok svc) = limited
          cases limited with
          | error e => rfl
          | ok svc => rfl

/-- On its own a request to delete is the handler. -/
theorem deleteMountpoint_alone (id : Option ℤ) :
    MountpointCall.alone bc cfg env 3 (h, .readRow id) =
      ((h.deleteMountpoint env id).1, .returned (h.deleteMountpoint env id).2) := by
  unfold Handlers.deleteMountpoint
  cases id with
  | none => rfl
  | some id =>
    rw [MountpointCall.alone]
    dsimp only [MountpointCall.advance]
    cases hrow : h.acctSvc.getMountPointRowByID env.fails id with
    | none => rfl
    | some row =>
      -- the row that was read is the one of the id
      obtain rfl := (Table.byID_eq_some.mp (Option.ite_none_left_eq_some.mp hrow).2).2
      rw [MountpointCall.alone, MountpointCall.alone]
      dsimp only [MountpointCall.advance]
      cases (h.deleteInMemory env row).acctSvc.deleteMountPointRow env.fails row.id with
      | error e => rfl
      | ok svc => rfl

end Alone

/-! ## Requests in any interleaving -/

/-- The process with its requests in progress. -/
structure GhostState where
  h : Handlers
  requests : List MountpointCall

/-- A request arrives, or one in progress makes its next statement or call. -/
inductive GhostAction
  | create (body : Option CreateMountpointRequest)
  | delete (id : Option ℤ)
  | advance (i : ℕ) (env : AdminEnv)

/-- The registry has exactly the names of the rows. -/
def Handlers.SameNames (h : Handlers) : Prop :=
  ∀ name, (h.mgr.get name).isSome = true ↔ ∃ row ∈ h.acctSvc.mountpoints.rows, row.name = name

namespace GhostState

variable (bc : Bcrypt) (cfg : MountpointDefaultsConfig) (s : GhostState)

/-- A request arrives, or one under way runs its next statement, or its call of the manager. -/
def step : GhostAction → Option GhostState
  | .create body => some { s with requests := s.requests ++ [.insertRow body] }
  | .delete id => some { s with requests := s.requests ++ [.readRow id] }
  | .advance i env => (s.requests[i]?).map fun c =>
      ⟨(c.advance bc cfg env s.h).1, s.requests.set i (c.advance bc cfg env s.h).2⟩

/-- A request that has read `row` may delete its mountpoint from memory: nobody is still creating
it, and if the row is gone the name is not in the registry. -/
def MayDelete (row : MountPointRow) : Prop :=
  if (s.h.acctSvc.mountpoints.byID row.id).isSome then
    ∀ c ∈ s.requests, c.creating.map Prod.fst ≠ some row.id
  else (s.h.mgr.get row.name).isNone = true

instance (row : MountPointRow) : Decidable (s.MayDelete row) :=
  inferInstanceAs (Decidable (if (s.h.acctSvc.mountpoints.byID row.id).isSome then
    ∀ c ∈ s.requests, c.creating.map Prod.fst ≠ some row.id
  else (s.h.mgr.get row.name).isNone = true))

/-- The next step of a request does not fail where rows and mountpoints would part, and deletes a
mountpoint only if it may. -/
def MayAdvance (env : AdminEnv) : MountpointCall → Prop
  | .setSourceSecret req _ => req.sourceSecret ≠ [] →
      env.fails .setMountPointSourceSecret = false ∧
        (AcctSvc.generateFromPassword bc env.fails env.salt req.sourceSecret).isSome = true
  | .setMaxClients req _ => 0 < req.maxClients → env.fails .setMountPointMaxClients = false
  | .deleteInMemory row => s.MayDelete row
  | .deleteRow _ => env.fails .deleteMountPointRow = false
  | _ => True

instance (env : AdminEnv) (c : MountpointCall) : Decidable (s.MayAdvance bc env c) :=
  match c with
  | .setSourceSecret req _ => inferInstanceAs (Decidable (req.sourceSecret ≠ [] →
      env.fails .setMountPointSourceSecret = false ∧
        (AcctSvc.generateFromPassword bc env.fails env.salt req.sourceSecret).isSome = true))
  | .setMaxClients req _ => inferInstanceAs (Decidable (0 < req.maxClients →
      env.fails .setMountPointMaxClients = false))
  | .deleteInMemory row => inferInstanceAs (Decidable (s.MayDelete row))
  | .deleteRow .. => inferInstanceAs (Decidable (env.fails .deleteMountPointRow = false))
  | .insertRow _ | .createInMemory .. | .readRow _ | .returned _ => .isTrue trivial

end GhostState

/-- Requests that arrive and advance in any order, from a state in which every row is enabled and
the registry has exactly the names of the rows. -/
def ghostSystem (bc : Bcrypt) (cfg : MountpointDefaultsConfig) : System GhostState GhostAction where
  init s := s.requests = [] ∧ (∀ row ∈ s.h.acctSvc.mountpoints.rows, row.isEnabled = true) ∧
    s.h.SameNames
  step s a := s.step bc cfg a

/-- The condition on a step: what a creation still has to write and the last statement of a
deletion do not fail, and a mountpoint is deleted from memory only by a request that may. -/
def KeepsInStep (bc : Bcrypt) (s : GhostState) : GhostAction → Prop
  | .advance i env => ∀ c ∈ s.requests[i]?, s.MayAdvance bc env c
  | _ => True

instance (bc : Bcrypt) (s : GhostState) (a : GhostAction) : Decidable (KeepsInStep bc s a) :=
  match a with
  | .advance i env => inferInstanceAs (Decidable (∀ c ∈ s.requests[i]?, s.MayAdvance bc env c))
  | .create _ | .delete _ => .isTrue trivial

/-! ## The rows -/

/-- The table has a row with this id and this name. -/
def HasRow (t : MountPointTable) (id : ℤ) (name : Bytes) : Prop :=
  ∃ row ∈ t.rows, row.id = id ∧ row.name = name

namespace HasRow

variable {t t' : MountPointTable} {id id' : ℤ} {name name' : Bytes}

theorem name_eq (h : HasRow t id name) (h' : HasRow t id name') : name = name' := by
  obtain ⟨r, hr, hid, rfl⟩ := h
  obtain ⟨r', hr', rfl, rfl⟩ := h'
  rw [Table.eq_of_id hr hr' hid]

theorem id_eq (h : HasRow t id name) (h' : HasRow t id' name) : id = id' := by
  obtain ⟨r, hr, rfl, hname⟩ := h
  obtain ⟨r', hr', rfl, rfl⟩ := h'
  rw [Table.eq_of_key hr hr' hname]

theorem id_le_seq (h : HasRow t id name) : id ≤ t.seq := by
  obtain ⟨r, hr, rfl, -⟩ := h
  exact t.id_le_seq r hr

/-- An `UPDATE` leaves ids and names. -/
theorem modify_iff {i : ℤ} {f : MountPointRow → MountPointRow}
    {hf : ∀ r, (f r).id = r.id ∧ (f r).name = r.name} :
    HasRow (t.modify i f hf) id name ↔ HasRow t id name := by
  constructor
  · rintro ⟨r, hr, rfl, rfl⟩
    rcases Table.mem_modify.mp hr with ⟨hr, -⟩ | ⟨r₀, hr₀, -, rfl⟩
    · exact ⟨r, hr, rfl, rfl⟩
    · exact ⟨r₀, hr₀, (hf r₀).1.symm, (hf r₀).2.symm⟩
  · rintro ⟨r, hr, rfl, rfl⟩
    by_cases hi : r.id = i
    · exact ⟨f r, Table.mem_modify.mpr (.inr ⟨r, hr, hi, rfl⟩), hf r⟩
    · exact ⟨r, Table.mem_modify.mpr (.inl ⟨hr, hi⟩), rfl, rfl⟩

theorem delete_iff {i : ℤ} : HasRow (t.delete i) id name ↔ HasRow t id name ∧ id ≠ i := by
  constructor
  · rintro ⟨r, hr, rfl, rfl⟩
    obtain ⟨hr, hi⟩ := Table.mem_delete.mp hr
    exact ⟨⟨r, hr, rfl, rfl⟩, hi⟩
  · rintro ⟨⟨r, hr, rfl, rfl⟩, hi⟩
    exact ⟨r, Table.mem_delete.mpr ⟨hr, hi⟩, rfl, rfl⟩

/-- A new row has a new id and a new name. -/
theorem create_iff {description format : Bytes} {i : ℤ}
    (h : t.create name' description format = some (t', i)) :
    HasRow t' id name ↔ HasRow t id name ∨ id = i ∧ name = name' := by
  have hput := Table.puts_insert h
  constructor
  · rintro ⟨r, hr, rfl, rfl⟩
    rcases (hput r).mp hr with ⟨hr, -⟩ | rfl
    · exact .inl ⟨r, hr, rfl, rfl⟩
    · exact .inr ⟨rfl, rfl⟩
  · rintro (⟨r, hr, rfl, rfl⟩ | ⟨rfl, rfl⟩)
    · exact ⟨r, (hput r).mpr (.inl ⟨hr, (Table.ne_of_insert h hr).1⟩), rfl, rfl⟩
    · exact ⟨_, (hput _).mpr (.inr rfl), rfl, rfl⟩

end HasRow

/-! ## What is in step -/

namespace GhostState

/-- A request is creating the mountpoint of this row. -/
def Creating (requests : List MountpointCall) (id : ℤ) (name : Bytes) : Prop :=
  ∃ c ∈ requests, c.creating = some (id, name)

/-- A request has deleted the mountpoint of this row from memory. -/
def Sweeping (requests : List MountpointCall) (id : ℤ) : Prop :=
  ∃ c ∈ requests, c.sweeping.map MountPointRow.id = some id

/-- Every difference between registry and table is a request in progress: a row whose mountpoint is
not there is being created or swept, and a row that is being swept has no mountpoint. -/
structure InStep (s : GhostState) : Prop where
  created : ∀ id name, Creating s.requests id name → HasRow s.h.acctSvc.mountpoints id name
  read : ∀ c ∈ s.requests, ∀ row ∈ c.deleting, row.id ≤ s.h.acctSvc.mountpoints.seq ∧
    ∀ name, HasRow s.h.acctSvc.mountpoints row.id name → name = row.name
  swept : ∀ c ∈ s.requests, ∀ row ∈ c.sweeping, HasRow s.h.acctSvc.mountpoints row.id row.name →
    s.h.mgr.get row.name = none ∧ ∀ name, ¬ Creating s.requests row.id name
  loaded : ∀ id name, HasRow s.h.acctSvc.mountpoints id name →
    (s.h.mgr.get name).isSome = true ∨ Creating s.requests id name ∨ Sweeping s.requests id
  stored : ∀ name, (s.h.mgr.get name).isSome = true →
    ∃ id, HasRow s.h.acctSvc.mountpoints id name

variable {bc : Bcrypt} {cfg : MountpointDefaultsConfig} {s : GhostState} {i : ℕ}
  {c c' : MountpointCall}

/-- What holds of the rows that the requests hold, after the move of one to where it holds none. -/
theorem forall_held_set {l : List MountpointCall} {f : MountpointCall → Option MountPointRow}
    {P : MountPointRow → Prop} (h : ∀ d ∈ l, ∀ row ∈ f d, P row) (hf : f c' = none) :
    ∀ d ∈ l.set i c', ∀ row ∈ f d, P row := by
  refine forall_mem_set h fun row hrow => ?_
  rw [hf] at hrow
  cases hrow

/-- A step that leaves keys and registry as they are, and after which the request holds what it
held. -/
theorem InStep.keep (hs : s.InStep) (hc : s.requests[i]? = some c) {h' : Handlers}
    (hmgr : h'.mgr = s.h.mgr)
    (hrows : ∀ {id name}, HasRow h'.acctSvc.mountpoints id name ↔
      HasRow s.h.acctSvc.mountpoints id name)
    (hseq : h'.acctSvc.mountpoints.seq = s.h.acctSvc.mountpoints.seq)
    (hcreating : c'.creating = c.creating) (hdeleting : c'.deleting = c.deleting)
    (hsweeping : c'.sweeping = c.sweeping) : InStep ⟨h', s.requests.set i c'⟩ := by
  have hmem := List.mem_of_getElem? hc
  have hcreate : ∀ {id name}, Creating (s.requests.set i c') id name ↔
      Creating s.requests id name := exists_mem_set_iff hc (by rw [hcreating])
  have hsweep : ∀ {id}, Sweeping (s.requests.set i c') id ↔ Sweeping s.requests id :=
    exists_mem_set_iff hc (by rw [hsweeping])
  refine ⟨fun id name h => ?_, forall_mem_set ?_ ?_, forall_mem_set ?_ ?_, fun id name h => ?_,
    fun name h => ?_⟩
  · exact hrows.mpr (hs.created id name (hcreate.mp h))
  · intro d hd row hrow
    simpa only [hrows, hseq] using hs.read d hd row hrow
  · intro row hrow
    simpa only [hrows, hseq] using hs.read c hmem row (hdeleting ▸ hrow)
  · intro d hd row hrow
    simpa only [hrows, hmgr, hcreate] using hs.swept d hd row hrow
  · intro row hrow
    simpa only [hrows, hmgr, hcreate] using hs.swept c hmem row (hsweeping ▸ hrow)
  · simpa only [hmgr, hcreate, hsweep] using hs.loaded id name (hrows.mp h)
  · simpa only [hrows] using hs.stored name (hmgr ▸ h)

/-- A request that holds nothing starts. -/
theorem InStep.start (hs : s.InStep) (hcreating : c.creating = none) (hdeleting : c.deleting = none)
    (hsweeping : c.sweeping = none) : InStep { s with requests := s.requests ++ [c] } := by
  have hcreate : ∀ {id name}, Creating (s.requests ++ [c]) id name ↔
      Creating s.requests id name := by
    intro id name
    simp only [Creating, List.mem_append, List.mem_singleton, or_and_right, exists_or,
      exists_eq_left, hcreating, reduceCtorEq, or_false]
  have hsweep : ∀ {id}, Sweeping (s.requests ++ [c]) id ↔ Sweeping s.requests id := by
    intro id
    simp only [Sweeping, List.mem_append, List.mem_singleton, or_and_right, exists_or,
      exists_eq_left, hsweeping, Option.map_none, reduceCtorEq, or_false]
  refine ⟨fun id name h => hs.created id name (hcreate.mp h), forall_mem_snoc hs.read ?_,
    forall_mem_snoc ?_ ?_, fun id name h => ?_, hs.stored⟩
  · intro row hrow
    rw [hdeleting] at hrow
    cases hrow
  · simpa only [hcreate] using hs.swept
  · intro row hrow
    rw [hsweeping] at hrow
    cases hrow
  · simpa only [hcreate, hsweep] using hs.loaded id name h

theorem deleting_of_sweeping {row : MountPointRow} (h : row ∈ c.sweeping) : row ∈ c.deleting := by
  cases c with
  | deleteRow _ => exact h
  | _ => cases h

/-- From the insert on, the request is the one that creates the mountpoint of its row. -/
theorem InStep.insertRow (hs : s.InStep) {body : Option CreateMountpointRequest}
    {req : CreateMountpointRequest} (hc : s.requests[i]? = some (.insertRow body))
    {description format : Bytes} {t : MountPointTable} {id : ℤ}
    (hinsert : s.h.acctSvc.mountpoints.create req.name description format = some (t, id)) :
    InStep ⟨{ s.h with acctSvc := { s.h.acctSvc with mountpoints := t } },
      s.requests.set i (.setSourceSecret req id)⟩ := by
  have hmem := List.mem_set (List.getElem?_eq_some_iff.mp hc).1 (.setSourceSecret req id)
  have hseq : id = s.h.acctSvc.mountpoints.seq + 1 := Table.id_of_insert hinsert
  have hseq' : t.seq = id := Table.seq_of_insert hinsert
  have hrows : ∀ {id' name}, HasRow t id' name ↔
      HasRow s.h.acctSvc.mountpoints id' name ∨ id' = id ∧ name = req.name :=
    HasRow.create_iff hinsert
  have hcreate : ∀ {id' name}, Creating (s.requests.set i (.setSourceSecret req id)) id' name →
      id' = id ∧ name = req.name ∨ Creating s.requests id' name := fun h =>
    (of_exists_mem_set h).imp_left fun hp =>
      have hp := Prod.mk.inj (Option.some.inj hp)
      ⟨hp.1.symm, hp.2.symm⟩
  -- a row that was read before is not the new one
  have hread : ∀ d ∈ s.requests, ∀ row ∈ d.deleting, row.id ≠ id := fun d hd row hrow => by
    have := (hs.read d hd row hrow).1
    omega
  refine ⟨fun id' name h => ?_, forall_held_set (fun d hd row hrow => ?_) rfl,
    forall_held_set (fun d hd row hrow h => ?_) rfl, fun id' name h => ?_, fun name h => ?_⟩
  · exact hrows.mpr ((hcreate h).elim .inr fun h => .inl (hs.created id' name h))
  · obtain ⟨hle, hname⟩ := hs.read d hd row hrow
    have hle' : s.h.acctSvc.mountpoints.seq ≤ t.seq := by omega
    refine ⟨hle.trans hle', fun name h => ?_⟩
    exact (hrows.mp h).elim (hname name) fun h => absurd h.1 (hread d hd row hrow)
  · have hne := hread d hd row (deleting_of_sweeping hrow)
    have hold := (hrows.mp h).resolve_right fun h => hne h.1
    obtain ⟨hnone, hnot⟩ := hs.swept d hd row hrow hold
    exact ⟨hnone, fun name h => (hcreate h).elim (fun h => hne h.1) (hnot name)⟩
  · rcases hrows.mp h with h | ⟨rfl, rfl⟩
    · refine (hs.loaded id' name h).imp_right (Or.imp (fun h => ?_) fun h => ?_)
      · exact (exists_mem_set hc h).resolve_left nofun
      · exact (exists_mem_set hc h).resolve_left nofun
    · exact .inr (.inl ⟨_, hmem, rfl⟩)
  · obtain ⟨id', hrow⟩ := hs.stored name h
    exact ⟨id', hrows.mpr (.inl hrow)⟩

theorem createInMemory_get (cfg : MountpointDefaultsConfig) (h : Handlers)
    (req : CreateMountpointRequest) :
    ((h.createInMemory cfg req).mgr.get req.name).isSome = true ∧
      ∀ name, name ≠ req.name → (h.createInMemory cfg req).mgr.get name = h.mgr.get name := by
  rw [Handlers.createInMemory, Handlers.ignoreError_mgr, Manager.create]
  cases hget : h.mgr.get req.name with
  | some mp => exact ⟨Option.isSome_iff_exists.mpr ⟨mp, hget⟩, fun _ _ => rfl⟩
  | none =>
    refine ⟨?_, fun name hne => Manager.get_set_ne hne _⟩
    exact Option.isSome_iff_exists.mpr ⟨_, Manager.get_set_self _ _ _⟩

/-- The row that the request was creating is in the registry. -/
theorem InStep.createInMemory (hs : s.InStep) {req : CreateMountpointRequest} {id : ℤ}
    (hc : s.requests[i]? = some (.createInMemory req id)) {answer : Except AdminError Unit} :
    InStep ⟨s.h.createInMemory cfg req, s.requests.set i (.returned answer)⟩ := by
  have hsvc : (s.h.createInMemory cfg req).acctSvc = s.h.acctSvc :=
    Handlers.ignoreError_acctSvc _ _
  obtain ⟨hself, hother⟩ := createInMemory_get cfg s.h req
  have hmine : Creating s.requests id req.name := ⟨_, List.mem_of_getElem? hc, rfl⟩
  have hcreate : ∀ {id' name}, Creating (s.requests.set i (.returned answer)) id' name →
      Creating s.requests id' name := fun h => (of_exists_mem_set h).resolve_left nofun
  refine ⟨fun id' name h => ?_, forall_held_set ?_ rfl,
    forall_held_set (fun d hd row hrow h => ?_) rfl, fun id' name h => ?_, fun name h => ?_⟩
  · exact hsvc ▸ hs.created id' name (hcreate h)
  · simpa only [hsvc] using hs.read
  · rw [hsvc] at h
    obtain ⟨hnone, hnot⟩ := hs.swept d hd row hrow h
    -- the row that is swept is not the one whose mountpoint is created
    have hne : row.name ≠ req.name := fun he =>
      hnot req.name ((he ▸ h).id_eq (hs.created id req.name hmine) ▸ hmine)
    exact ⟨(hother _ hne).trans hnone, fun name h => hnot name (hcreate h)⟩
  · rw [hsvc] at h
    by_cases hname : name = req.name
    · exact .inl (hname ▸ hself)
    · dsimp only
      rw [hother name hname]
      refine (hs.loaded id' name h).imp_right (Or.imp (fun h => ?_) fun h => ?_)
      · refine (exists_mem_set hc h).resolve_left fun hp => hname ?_
        exact (Prod.mk.inj (Option.some.inj hp)).2.symm
      · exact (exists_mem_set hc h).resolve_left nofun
  · dsimp only at h ⊢
    rw [hsvc]
    by_cases hname : name = req.name
    · exact ⟨id, hname ▸ hs.created id req.name hmine⟩
    · exact hs.stored name (hother name hname ▸ h)

theorem InStep.readRow (hs : s.InStep) {id : Option ℤ} {row : MountPointRow}
    (hc : s.requests[i]? = some (.readRow id)) (hrow : row ∈ s.h.acctSvc.mountpoints.rows) :
    InStep ⟨s.h, s.requests.set i (.deleteInMemory row)⟩ := by
  have hrow' : HasRow s.h.acctSvc.mountpoints row.id row.name := ⟨row, hrow, rfl, rfl⟩
  have hcreate : ∀ {id name}, Creating (s.requests.set i (.deleteInMemory row)) id name ↔
      Creating s.requests id name := exists_mem_set_iff hc (iff_of_false nofun nofun)
  have hsweep : ∀ {id}, Sweeping (s.requests.set i (.deleteInMemory row)) id ↔
      Sweeping s.requests id := exists_mem_set_iff hc (iff_of_false nofun nofun)
  refine ⟨fun id name h => hs.created id name (hcreate.mp h), forall_mem_set hs.read ?_,
    forall_held_set ?_ rfl, fun id name h => ?_, hs.stored⟩
  · rintro _ ⟨⟩
    exact ⟨hrow'.id_le_seq, fun name h => h.name_eq hrow'⟩
  · simpa only [hcreate] using hs.swept
  · simpa only [hcreate, hsweep] using hs.loaded id name h

/-- The name leaves the registry; its row, if it is still there, is one being swept. -/
theorem InStep.deleteInMemory (hs : s.InStep) {row : MountPointRow} (env : AdminEnv)
    (hc : s.requests[i]? = some (.deleteInMemory row)) (hmay : s.MayDelete row) :
    InStep ⟨s.h.deleteInMemory env row, s.requests.set i (.deleteRow row)⟩ := by
  have hmem := List.mem_of_getElem? hc
  have hmem' := List.mem_set (List.getElem?_eq_some_iff.mp hc).1 (.deleteRow row)
  have hsvc : (s.h.deleteInMemory env row).acctSvc = s.h.acctSvc :=
    Handlers.ignoreError_acctSvc _ _
  obtain ⟨hself, hother⟩ := Handlers.deleteInMemory_get env s.h row
  have hnone : ∀ {name}, s.h.mgr.get name = none →
      (s.h.deleteInMemory env row).mgr.get name = none := fun {name} h => by
    by_cases hname : name = row.name
    · exact hname ▸ hself
    · exact (hother name hname).trans h
  have hcreate : ∀ {id name}, Creating (s.requests.set i (.deleteRow row)) id name ↔
      Creating s.requests id name := exists_mem_set_iff hc (iff_of_false nofun nofun)
  have hread := (hs.read _ hmem row rfl).2
  refine ⟨fun id name h => ?_, forall_mem_set ?_ ?_,
    forall_mem_set (fun d hd row' hrow' h => ?_) ?_, fun id name h => ?_, fun name h => ?_⟩
  · exact hsvc ▸ hs.created id name (hcreate.mp h)
  · simpa only [hsvc] using hs.read
  · rintro _ ⟨⟩
    simpa only [hsvc] using hs.read _ hmem row rfl
  · obtain ⟨hgone, hnot⟩ := hs.swept d hd row' hrow' (hsvc ▸ h)
    exact ⟨hnone hgone, fun name h => hnot name (hcreate.mp h)⟩
  · rintro _ ⟨⟩ h
    refine ⟨hself, fun name hname => ?_⟩
    -- the row is there, so nobody is creating it
    obtain ⟨r, hr, hid, -⟩ := (hsvc ▸ h : HasRow s.h.acctSvc.mountpoints row.id row.name)
    rw [MayDelete, Table.byID_eq_some.mpr ⟨hr, hid⟩, if_pos Option.isSome_some] at hmay
    obtain ⟨d, hd, hd'⟩ := hcreate.mp hname
    exact hmay d hd (by rw [hd']; rfl)
  · rw [hsvc] at h
    have hkeep : Sweeping s.requests id → Sweeping (s.requests.set i (.deleteRow row)) id :=
      fun h => (exists_mem_set hc h).resolve_left nofun
    by_cases hname : name = row.name
    · subst hname
      rcases hs.loaded id row.name h with hlive | hmaking | hsweeping
      · refine .inr (.inr ⟨_, hmem', ?_⟩)
        have hrow : (s.h.acctSvc.mountpoints.byID row.id).isSome = true := by
          by_contra hrow
          rw [MayDelete, if_neg hrow, Option.isNone_iff_eq_none] at hmay
          rw [hmay] at hlive
          cases hlive
        obtain ⟨r, hr⟩ := Option.isSome_iff_exists.mp hrow
        obtain ⟨hr, hid⟩ := Table.byID_eq_some.mp hr
        have hthere : HasRow s.h.acctSvc.mountpoints row.id r.name := ⟨r, hr, hid, rfl⟩
        exact congrArg some ((hread _ hthere ▸ hthere).id_eq h)
      · exact .inr (.inl (hcreate.mpr hmaking))
      · exact .inr (.inr (hkeep hsweeping))
    · dsimp only
      rw [hother name hname]
      exact (hs.loaded id name h).imp_right (Or.imp hcreate.mpr hkeep)
  · dsimp only at h ⊢
    rw [hsvc]
    refine hs.stored name ?_
    by_contra hnot
    rw [hnone (Option.not_isSome_iff_eq_none.mp hnot)] at h
    cases h

/-- The row that the request was sweeping goes, and its name is not in the registry. -/
theorem InStep.deleteRow (hs : s.InStep) {row : MountPointRow}
    (hc : s.requests[i]? = some (.deleteRow row)) {answer : Except AdminError Unit} :
    InStep ⟨{ s.h with
      acctSvc := { s.h.acctSvc with mountpoints := s.h.acctSvc.mountpoints.delete row.id } },
      s.requests.set i (.returned answer)⟩ := by
  have hmem := List.mem_of_getElem? hc
  have hcreate : ∀ {id name}, Creating (s.requests.set i (.returned answer)) id name ↔
      Creating s.requests id name := exists_mem_set_iff hc (iff_of_false nofun nofun)
  have hrow : ∀ {name}, HasRow s.h.acctSvc.mountpoints row.id name →
      name = row.name ∧ s.h.mgr.get name = none ∧ ¬ Creating s.requests row.id name :=
    fun {name} h => by
      obtain rfl := (hs.read _ hmem row rfl).2 name h
      obtain ⟨hnone, hnot⟩ := hs.swept _ hmem row rfl h
      exact ⟨rfl, hnone, hnot _⟩
  refine ⟨fun id name h => ?_, forall_held_set (fun d hd row' hrow' => ?_) rfl,
    forall_held_set (fun d hd row' hrow' h => ?_) rfl, fun id name h => ?_, fun name h => ?_⟩
  · have h := hcreate.mp h
    have hthere := hs.created id name h
    refine HasRow.delete_iff.mpr ⟨hthere, ?_⟩
    rintro rfl
    exact (hrow hthere).2.2 h
  · obtain ⟨hle, hname⟩ := hs.read d hd row' hrow'
    exact ⟨hle, fun name h => hname name (HasRow.delete_iff.mp h).1⟩
  · obtain ⟨hnone, hnot⟩ := hs.swept d hd row' hrow' (HasRow.delete_iff.mp h).1
    exact ⟨hnone, fun name h => hnot name (hcreate.mp h)⟩
  · obtain ⟨h, hne⟩ := HasRow.delete_iff.mp h
    refine (hs.loaded id name h).imp_right (Or.imp hcreate.mpr fun h => ?_)
    exact (exists_mem_set hc h).resolve_left fun hp => hne (Option.some.inj hp).symm
  · obtain ⟨id, hthere⟩ := hs.stored name h
    refine ⟨id, HasRow.delete_iff.mpr ⟨hthere, ?_⟩⟩
    rintro rfl
    dsimp only at h
    rw [(hrow hthere).2.1] at h
    cases h

theorem HasRow.setSourceSecret_iff {t : MountPointTable} {i id : ℤ} {hash : Option Bytes}
    {name : Bytes} : HasRow (t.setSourceSecret i hash) id name ↔ HasRow t id name :=
  HasRow.modify_iff

theorem HasRow.setMaxClients_iff {t : MountPointTable} {i id limit : ℤ} {name : Bytes} :
    HasRow (t.setMaxClients i limit) id name ↔ HasRow t id name :=
  HasRow.modify_iff

/-- A secret that bcrypt takes is written where the statement does not fail. -/
theorem setMountPointSourceSecret_of_hash {fails : Statement → Bool} (svc : AcctSvc)
    {salt secret : Bytes} (id : ℤ) (hne : secret ≠ [])
    (hfail : fails .setMountPointSourceSecret = false)
    (hhash : (AcctSvc.generateFromPassword bc fails salt secret).isSome = true) :
    ∃ hash, svc.setMountPointSourceSecret bc fails salt id secret =
      .ok { svc with mountpoints := svc.mountpoints.setSourceSecret id hash } := by
  obtain ⟨hash, hhash⟩ := Option.isSome_iff_exists.mp hhash
  refine ⟨some hash, ?_⟩
  rw [AcctSvc.setMountPointSourceSecret, if_neg hne, hhash]
  exact if_neg (Bool.eq_false_iff.mp hfail)

/-- Every step that meets the condition keeps registry and table in step. -/
theorem InStep.step {s' : GhostState} {a : GhostAction} (hs : s.InStep)
    (hguard : KeepsInStep bc s a) (hstep : s.step bc cfg a = some s') : s'.InStep := by
  cases a with
  | create body => exact Option.some.inj hstep ▸ hs.start rfl rfl rfl
  | delete id => exact Option.some.inj hstep ▸ hs.start rfl rfl rfl
  | advance i env =>
    obtain ⟨c, hc, rfl⟩ := Option.map_eq_some_iff.mp hstep
    have hguard : s.MayAdvance bc env c := hguard c hc
    cases c with
    | insertRow body =>
      cases body with
      | none => exact hs.keep hc rfl .rfl rfl rfl rfl rfl
      | some req =>
        dsimp only [MountpointCall.advance]
        split
        next => exact hs.keep hc rfl .rfl rfl rfl rfl rfl
        next =>
          split
          next => exact hs.keep hc rfl .rfl rfl rfl rfl rfl
          next svc id hinsert =>
            obtain ⟨t, hcreate, rfl⟩ := AcctSvc.createMountPointRow_ok hinsert
            exact hs.insertRow hc hcreate
    | setSourceSecret req id =>
      dsimp only [MountpointCall.advance]
      by_cases hsecret : req.sourceSecret ≠ []
      · obtain ⟨hfail, hhash⟩ := hguard hsecret
        obtain ⟨hash, hwrite⟩ :=
          setMountPointSourceSecret_of_hash s.h.acctSvc id hsecret hfail hhash
        rw [if_pos hsecret, hwrite]
        exact hs.keep hc rfl HasRow.setSourceSecret_iff rfl rfl rfl rfl
      · rw [if_neg hsecret]
        exact hs.keep hc rfl .rfl rfl rfl rfl rfl
    | setMaxClients req id =>
      dsimp only [MountpointCall.advance]
      by_cases hlimit : 0 < req.maxClients
      · rw [if_pos hlimit, AcctSvc.setMountPointMaxClients,
          if_neg (Bool.eq_false_iff.mp (hguard hlimit))]
        exact hs.keep hc rfl HasRow.setMaxClients_iff rfl rfl rfl rfl
      · rw [if_neg hlimit]
        exact hs.keep hc rfl .rfl rfl rfl rfl rfl
    | createInMemory req id => exact hs.createInMemory hc
    | readRow id =>
      cases id with
      | none => exact hs.keep hc rfl .rfl rfl rfl rfl rfl
      | some id =>
        dsimp only [MountpointCall.advance]
        cases hrow : s.h.acctSvc.getMountPointRowByID env.fails id with
        | none => exact hs.keep hc rfl .rfl rfl rfl rfl rfl
        | some row =>
          have hbyID := (Option.ite_none_left_eq_some.mp hrow).2
          exact hs.readRow hc (Table.byID_eq_some.mp hbyID).1
    | deleteInMemory row => exact hs.deleteInMemory env hc hguard
    | deleteRow row =>
      dsimp only [MountpointCall.advance]
      rw [AcctSvc.deleteMountPointRow, if_neg (Bool.eq_false_iff.mp hguard)]
      exact hs.deleteRow hc
    | returned answer => exact hs.keep hc rfl .rfl rfl rfl rfl rfl

theorem InStep.init (hs : (ghostSystem bc cfg).init s) : s.InStep := by
  obtain ⟨hnone, -, hsame⟩ := hs
  refine ⟨?_, ?_, ?_, fun id name h => ?_, fun name h => ?_⟩
  · rintro id name ⟨c, hc, -⟩
    rw [hnone] at hc
    cases hc
  · simp [hnone]
  · simp [hnone]
  · obtain ⟨r, hr, -, rfl⟩ := h
    exact .inl ((hsame _).mpr ⟨r, hr, rfl⟩)
  · obtain ⟨r, hr, rfl⟩ := (hsame name).mp h
    exact ⟨r.id, r, hr, rfl, rfl⟩

/-- With nothing in progress there is no difference left. -/
theorem InStep.sameNames (hs : s.InStep) (hdone : ∀ c ∈ s.requests, c.hasReturned = true) :
    s.h.SameNames := by
  have hholds : ∀ c ∈ s.requests, c.creating = none ∧ c.sweeping = none := fun c hc => by
    have := hdone c hc
    cases c with
    | returned => exact ⟨rfl, rfl⟩
    | _ => cases this
  intro name
  constructor
  · intro h
    obtain ⟨id, r, hr, -, hname⟩ := hs.stored name h
    exact ⟨r, hr, hname⟩
  · rintro ⟨r, hr, rfl⟩
    rcases hs.loaded r.id r.name ⟨r, hr, rfl, rfl⟩ with h | ⟨c, hc, h⟩ | ⟨c, hc, h⟩
    · exact h
    · rw [(hholds c hc).1] at h
      cases h
    · rw [(hholds c hc).2] at h
      cases h

end GhostState

/-- **No ghosts**: in a run in which no later statement of a creation fails, the last statement of a
deletion does not fail, and a mountpoint is deleted from memory only by a request that may, the
registry has exactly the names of the rows whenever all requests have returned. -/
theorem no_ghosts {bc : Bcrypt} {cfg : MountpointDefaultsConfig} {s : GhostState}
    (hr : ((ghostSystem bc cfg).restrict (KeepsInStep bc)).Reachable s)
    (hdone : ∀ c ∈ s.requests, c.hasReturned = true) : s.h.SameNames := by
  have hin : s.InStep := System.Reachable.restrict_invariant (I := GhostState.InStep)
    (fun _ ht => .init ht) (fun _ _ _ _ ht hguard hstep => ht.step hguard hstep) hr
  exact hin.sameNames hdone

/-- A process without mountpoints. -/
def noMountpoints : GhostState := ⟨⟨⟨.empty, .empty, ∅⟩, .new, ⟨[], []⟩⟩, []⟩

theorem noMountpoints_init : (ghostSystem plainBcrypt {}).init noMountpoints := by
  refine ⟨rfl, ?_, fun name => ⟨fun h => ?_, ?_⟩⟩
  · rintro row ⟨⟩
  · cases h
  · rintro ⟨row, ⟨⟩, -⟩

/-- The next step of request `i`, where nothing fails. -/
def next (i : ℕ) : GhostAction := .advance i faultless

/-- `M` is created and deleted while `N` is being created. -/
theorem no_ghosts_overlapping :
    ∃ s, ((ghostSystem plainBcrypt {}).restrict (KeepsInStep plainBcrypt)).run noMountpoints
        [.create (some { name := ascii "M" }), next 0, next 0,
          .create (some { name := ascii "N" }), next 1, next 0, next 0, .delete (some 1), next 2,
          next 1, next 2, next 1, next 2, next 1] = some s ∧
      (s.h.mgr.get (ascii "N")).isSome = true ∧ (s.h.mgr.get (ascii "M")).isNone = true ∧
      s.h.SameNames := by
  obtain ⟨s, hrun, hN, hM, hdone⟩ : ∃ s, ((ghostSystem plainBcrypt {}).restrict
        (KeepsInStep plainBcrypt)).run noMountpoints
        [.create (some { name := ascii "M" }), next 0, next 0,
          .create (some { name := ascii "N" }), next 1, next 0, next 0, .delete (some 1), next 2,
          next 1, next 2, next 1, next 2, next 1] = some s ∧
      (s.h.mgr.get (ascii "N")).isSome = true ∧ (s.h.mgr.get (ascii "M")).isNone = true ∧
      s.requests.all MountpointCall.hasReturned = true := ⟨_, rfl, rfl, rfl, rfl⟩
  exact ⟨s, hrun, hN, hM, no_ghosts (.of_run _ noMountpoints_init hrun) (List.all_eq_true.mp hdone)⟩

/-- `M` is deleted between the insert of its row and the creation of its mountpoint, which then has
no row that a request could name. -/
theorem ghost :
    ¬ ∀ (bc : Bcrypt) (cfg : MountpointDefaultsConfig) (s : GhostState),
      (ghostSystem bc cfg).Reachable s → (∀ c ∈ s.requests, c.hasReturned = true) →
        s.h.SameNames := by
  intro hall
  obtain ⟨s, hrun, hM, hrows, hdone⟩ : ∃ s, (ghostSystem plainBcrypt {}).run noMountpoints
        [.create (some { name := ascii "M" }), next 0, next 0, next 0, .delete (some 1), next 1,
          next 1, next 1, next 0] = some s ∧
      (s.h.mgr.get (ascii "M")).isSome = true ∧ s.h.acctSvc.mountpoints.rows = [] ∧
      s.requests.all MountpointCall.hasReturned = true := ⟨_, rfl, rfl, rfl, rfl⟩
  have hsame := hall plainBcrypt {} s (.of_run _ noMountpoints_init hrun)
    (List.all_eq_true.mp hdone)
  obtain ⟨row, hrow, -⟩ := (hsame (ascii "M")).mp hM
  rw [hrows] at hrow
  cases hrow

end NtripCaster
