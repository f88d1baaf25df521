import NtripCaster.Rover.Accounting

/-!
# ListClients the rovers that are online

`ListClients` of `internal/api/handlers.go`, over `Manager.List` and `MountPoint.ClientInfos`. The
mountpoints are read one after the other while the server goes on: rovers come and go, and write
loops count bytes.

## Main definitions

* `ClientInfo`, `CliInfo`: an entry of `ClientInfos`, and a row of the answer
* `ListClients`, `ListClients.step`: the handler
* `listClientsSystem`: the handler and the server, in any order of steps

## Main results

* `RoverState.session_step`, `RoverState.mount_step`: what a step of the server leaves as it is
* `ListClients.Listed`: the invariant
* `listClients_online`: what the answer says
-/

namespace NtripCaster

open Transition

/-- `mountpoint.ClientInfo`, with the client for its ID and its user ID. -/
structure ClientInfo where
  client : Client
  bytesOut : ℤ
  deriving DecidableEq, Repr

/-- `cliInfo`, with the client for its ID and its user ID. -/
structure CliInfo where
  mountPoint : Bytes
  client : Client
  username : Bytes
  bytesOut : ℤ
  deriving DecidableEq, Repr

/-- The parameters `mountpoint` and `username` of the request; an empty one filters nothing. -/
structure ClientQuery where
  mountFilter : Bytes
  usernameFilter : Bytes

/-- Where the handler stands: at the head of its loop over the mountpoints; in `ClientInfos` of a
mountpoint, with the clients whose `BytesOut` is still to be loaded; in its loop over the result. -/
inductive ListClientsPC
  | mounts (todo : List ℕ)
  | clientInfos (m : ℕ) (left : List Client) (infos : List ClientInfo) (todo : List ℕ)
  | rows (m : ℕ) (left : List ClientInfo) (todo : List ℕ)
  deriving DecidableEq, Repr

/-- The handler of `ListClients`, under way. -/
structure ListClients where
  pc : ListClientsPC
  result : List CliInfo
  deriving DecidableEq, Repr

namespace ListClientsPC

/-- The mountpoints still to be read. -/
@[simp] def todo : ListClientsPC → List ℕ
  | mounts todo | clientInfos _ _ _ todo | rows _ _ todo => todo

/-- The mountpoint being read. -/
@[simp] def mount : ListClientsPC → Option ℕ
  | mounts _ => none
  | clientInfos m .. | rows m .. => some m

/-- The entries in hand. -/
@[simp] def infos : ListClientsPC → List ClientInfo
  | mounts _ => []
  | clientInfos _ _ infos _ | rows _ infos _ => infos

/-- The clients that have no entry yet. -/
@[simp] def left : ListClientsPC → List Client
  | clientInfos _ left _ _ => left
  | _ => []

end ListClientsPC

namespace ListClients

/-- The next step of the handler on a server. `ord` is the order of the loop over `clientsByID`, and
`user` the name that `GetUser` finds. `ClientInfos` holds the mutex of the mountpoint; here the
server may go on in the meantime. -/
def step (q : ClientQuery) (s : RoverState) (ord : RangeOrder Client) (user : Option Bytes)
    (l : ListClients) : Option ListClients :=
  match l.pc with
  | .mounts [] => none
  | .mounts (m :: todo) =>
    (s.mounts[m]?).map fun mt =>
      if q.mountFilter ≠ [] ∧ mt.point.name ≠ q.mountFilter then { l with pc := .mounts todo }
      else { l with pc := .clientInfos m (ord.visit mt.point.clientsByID.values) [] todo }
  | .clientInfos m [] infos todo => some { l with pc := .rows m infos todo }
  | .clientInfos m (c :: left) infos todo =>
    (s.sessions[c.ref]?).map fun x =>
      { l with pc := .clientInfos m left (infos ++ [⟨c, x.bytesOut⟩]) todo }
  | .rows _ [] todo => some { l with pc := .mounts todo }
  | .rows m (info :: left) todo =>
    (s.mounts[m]?).map fun mt =>
      -- a session without a user has user ID 0
      let username := if 0 < info.client.userID then user.getD [] else []
      if q.usernameFilter ≠ [] ∧ username ≠ q.usernameFilter then { l with pc := .rows m left todo }
      else
        { pc := .rows m left todo
          result := l.result ++ [⟨mt.point.name, info.client, username, info.bytesOut⟩] }

/-- The clients that have been read, in the order of their rows. -/
def clients (l : ListClients) : List Client :=
  l.result.map CliInfo.client ++ (l.pc.infos.map ClientInfo.client ++ l.pc.left)

end ListClients

/-- A server and a handler on it. -/
structure ListClientsState where
  server : RoverState
  handler : ListClients

/-- A step of the server, or one of the handler. -/
inductive ListClientsStep
  | server (a : RoverStep)
  | list (ord : RangeOrder Client) (user : Option Bytes)

/-- The handler reads the server as it finds it. -/
def ListClientsState.step (q : ClientQuery) (t : ListClientsState) :
    ListClientsStep → Option ListClientsState
  | .server a => (t.server.step a).map fun s => { t with server := s }
  | .list ord user => (t.handler.step q t.server ord user).map fun l => { t with handler := l }

/-- The handler, from the return of `Manager.List` with the mountpoints `ms` on a server in state
`s₀`. -/
def listClientsSystem (q : ClientQuery) (s₀ : RoverState) (ms : List ℕ) :
    System ListClientsState ListClientsStep where
  init t := t = ⟨s₀, ⟨.mounts ms, []⟩⟩
  step := ListClientsState.step q

/-! ## What the server leaves as it is -/

namespace Session

/-- A session keeps its mountpoint, and once it is admitted its client; its counter only grows. -/
structure Grows (x x' : Session) : Prop where
  mount : x'.mount = x.mount
  admitted : x.pc.admitted = true → x'.pc.admitted = true ∧ x'.client = x.client
  bytesOut : x.bytesOut ≤ x'.bytesOut

theorem Grows.refl (x : Session) : x.Grows x := ⟨rfl, fun h => ⟨h, rfl⟩, le_rfl⟩

variable {x x' : Session}

theorem Grows.setPC {pc : RoverPC} (h : x.pc.admitted = true → pc.admitted = true) :
    x.Grows { x with pc := pc } :=
  ⟨rfl, fun hadm => ⟨h hadm, rfl⟩, le_rfl⟩

/-- A move of the session's own goroutines. -/
theorem Grows.of_moves (h : x.Moves x') (hbytes : x.bytesOut ≤ x'.bytesOut) : x.Grows x' :=
  ⟨h.mount, fun hadm => ⟨h.admitted.trans hadm, h.client⟩, hbytes⟩

theorem bytesOut_kick (x : Session) : x.kick.bytesOut = x.bytesOut := by
  unfold kick
  split <;> rfl

theorem bytesOut_connWrite {b : Bytes} {r : WriteResult} {ok : Bool}
    (h : x.connWrite b r = some (x', ok)) : x'.bytesOut = x.bytesOut := by
  obtain ⟨sent, broken, rfl, -⟩ := connWrite_eq_some h
  rfl

theorem bytesOut_writeLoop {case : LoopCase} {r : WriteResult}
    (h : x.writeLoop case r = some x') : x.bytesOut ≤ x'.bytesOut := by
  unfold writeLoop at h
  split at h
  · obtain ⟨-, h⟩ := Option.ite_none_right_eq_some.mp h
    exact Option.some.inj h ▸ le_rfl
  · obtain ⟨-, h⟩ := Option.ite_none_right_eq_some.mp h
    exact Option.some.inj h ▸ le_rfl
  · split at h
    · cases h
    · exact Option.some.inj h ▸ le_rfl
  · obtain ⟨⟨y, ok⟩, hw, rfl⟩ := Option.map_eq_some_iff.mp h
    have hy := bytesOut_connWrite hw
    cases ok with
    | true =>
      show x.bytesOut ≤ y.bytesOut + _
      omega
    | false =>
      show x.bytesOut ≤ y.kick.bytesOut
      rw [bytesOut_kick, hy]
  · obtain ⟨-, h⟩ := Option.ite_none_right_eq_some.mp h
    exact Option.some.inj h ▸ le_rfl
  · cases h

/-- Once admitted a session keeps its client, and `BytesOut` never falls. -/
theorem Goes.grows (h : x.Goes x') : x.Grows x' := by
  cases h with
  | reject hpc hr =>
    obtain ⟨⟨y, ok⟩, hw, rfl⟩ := Option.map_eq_some_iff.mp hr
    exact .of_moves (moves_reject hpc hr) (bytesOut_connWrite hw).ge
  | check hpc => exact .setPC fun hadm => absurd (hpc.symm.trans hadm) (by decide)
  | addClient c hpc =>
    refine ⟨rfl, fun hadm => ?_, le_rfl⟩
    rw [hpc] at hadm
    cases hadm
  | add => exact .setPC fun _ => rfl
  | respond hpc hr =>
    obtain ⟨⟨y, ok⟩, hw, rfl⟩ := Option.map_eq_some_iff.mp hr
    exact .of_moves (moves_respond hpc hr) (bytesOut_connWrite hw).ge
  | writeLoop hr => exact .of_moves (moves_writeLoop hr) (bytesOut_writeLoop hr)
  | removeClient => exact .setPC fun _ => rfl
  | release => exact .setPC fun _ => rfl
  | watch hr =>
    refine .of_moves (moves_watch hr) ?_
    unfold Session.watch at hr
    split at hr
    · exact Option.some.inj hr ▸ (bytesOut_kick x).ge
    · obtain ⟨-, hr⟩ := Option.ite_none_right_eq_some.mp hr
      exact Option.some.inj hr ▸ le_rfl
    · cases hr
  | closeConn hr =>
    refine .of_moves (moves_closeConn hr) ?_
    obtain ⟨-, hr⟩ := Option.ite_none_right_eq_some.mp hr
    exact Option.some.inj hr ▸ le_rfl
  | kick => exact .of_moves moves_kick (bytesOut_kick x).ge
  | trySend hr =>
    have hacc := trySend_accepts hr
    refine ⟨hacc.mount, fun hadm => ⟨hacc.admitted.trans hadm, hacc.client⟩, ?_⟩
    unfold Session.trySend at hr
    split at hr
    · exact Option.some.inj hr ▸ le_rfl
    · obtain ⟨-, hr⟩ := Option.ite_none_right_eq_some.mp hr
      exact Option.some.inj hr ▸ le_rfl
  | slow => exact ⟨rfl, fun hadm => ⟨hadm, rfl⟩, le_rfl⟩

end Session

/-- No critical section renames a mountpoint. -/
theorem MountPoint.name_apply {m : MountPoint} (op : CriticalSection) :
    (m.apply op).name = m.name := by
  cases op with
  | setSource info =>
    simp only [MountPoint.apply, MountPoint.setSource]
    split <;> rfl
  | clearSource ord srcID =>
    simp only [MountPoint.apply, MountPoint.clearSource]
    split
    · rfl
    · split <;> rfl
  | addClient ord c =>
    simp only [MountPoint.apply, MountPoint.addClient]
    split_ifs <;> rfl
  | removeClient ord id =>
    simp only [MountPoint.apply, MountPoint.removeClient]
    split <;> rfl
  | kickClient ord id =>
    simp only [MountPoint.apply, MountPoint.kickClient]
    split <;> rfl
  | kickClientsByUser ord ord' userID =>
    simp only [MountPoint.apply, MountPoint.kickClientsByUser]
    split <;> rfl
  | kickSourceByUser ord ord' userID =>
    simp only [MountPoint.apply, MountPoint.kickSourceByUser]
    split
    · rfl
    · split <;> rfl
  | disconnectAll ord => rfl
  | update description format enabled writeQueue writeTimeout maxClients => rfl

namespace RoverState

variable {s s' : RoverState} {a : RoverStep}

/-- A session goes on. -/
theorem session_step (h : s.step a = some s') {i : ℕ} {x : Session}
    (hx : s.sessions[i]? = some x) : ∃ x', s'.sessions[i]? = some x' ∧ x.Grows x' :=
  ((step_goes h).mono fun _ _ => Session.Goes.grows).exists_getElem? Session.Grows.refl hx

/-- A mountpoint keeps its name, and who joins its snapshot is a client that was not admitted. -/
theorem mount_step (hk : Known s.mounts s.sessions) (h : s.step a = some s') {m : ℕ} {mt : Mount}
    (hmt : s.mounts[m]? = some mt) :
    ∃ mt', s'.mounts[m]? = some mt' ∧ mt'.point.name = mt.point.name ∧
      ∀ d ∈ mt'.point.snapshot, d ∈ mt.point.snapshot ∨
        ∃ x, s.sessions[d.ref]? = some x ∧ x.pc.admitted = false := by
  have hsame : ∃ mt', s.mounts[m]? = some mt' ∧ mt'.point.name = mt.point.name ∧
      ∀ d ∈ mt'.point.snapshot, d ∈ mt.point.snapshot ∨
        ∃ x, s.sessions[d.ref]? = some x ∧ x.pc.admitted = false :=
    ⟨mt, hmt, rfl, fun d hd => .inl hd⟩
  have hpoint : ∀ {k : ℕ} {y y' : Mount}, s.mounts[k]? = some y → y'.point = y.point →
      ∃ mt', (s.mounts.set k y')[m]? = some mt' ∧ mt'.point.name = mt.point.name ∧
        ∀ d ∈ mt'.point.snapshot, d ∈ mt.point.snapshot ∨
          ∃ x, s.sessions[d.ref]? = some x ∧ x.pc.admitted = false := by
    intro k y y' hy heq
    exact exists_getElem?_set hy hsame fun _ hP => heq ▸ hP
  have hshrink : ∀ {k : ℕ} {y y' : Mount}, s.mounts[k]? = some y →
      y'.point.name = y.point.name → (∀ d ∈ y'.point.snapshot, d ∈ y.point.snapshot) →
      ∃ mt', (s.mounts.set k y')[m]? = some mt' ∧ mt'.point.name = mt.point.name ∧
        ∀ d ∈ mt'.point.snapshot, d ∈ mt.point.snapshot ∨
          ∃ x, s.sessions[d.ref]? = some x ∧ x.pc.admitted = false := by
    intro k y y' hy hname hsub
    exact exists_getElem?_set hy hsame fun _ ⟨hn, hd⟩ =>
      ⟨hname.trans hn, fun d hd' => hd d (hsub d hd')⟩
  cases step_effect h with
  | connect => exact hsame
  | moves => exact hsame
  | teardowns => exact hsame
  | @addClient i x y ord r c mp ha hx hy hpc hc hadd =>
    refine exists_getElem?_set hy hsame fun _ ⟨hn, hd⟩ => ⟨?_, fun d hd' => ?_⟩
    · have hname := MountPoint.name_apply (m := y.point) (.addClient ord c)
      simp only [MountPoint.apply, hadd] at hname
      exact hname.trans hn
    · rcases (hk.rep _ _ hy).mem_snapshot_addClient hadd hd' with rfl | hd'
      · refine .inr ⟨x, ?_, by rw [hpc]; rfl⟩
        rw [(newClient_eq_some hc).1, hk.ref i x hx]
        exact hx
      · exact hd d hd'
  | add => exact hsame
  | removeClient ord hx hy hpc =>
    refine hshrink hy (MountPoint.name_apply (.removeClient ord _)) fun d hd => ?_
    have hop : ∀ id ord' c, CriticalSection.removeClient ord id ≠ .addClient ord' c := by
      intro id ord' c h
      cases h
    exact (hk.rep _ _ hy).mem_snapshot_apply (hop _) hd
  | release => exact hsame
  | operate t hy hop =>
    exact hshrink hy (MountPoint.name_apply _) fun d hd =>
      (hk.rep _ _ hy).mem_snapshot_apply hop hd
  | broadcast pkt hy hpc => exact hpoint hy rfl
  | finish hy hpc => exact hpoint hy rfl
  | enter hy hpc hx hdone => exact hpoint hy rfl
  | skip hy hpc hx hdone => exact hpoint hy rfl
  | accept hy hpc hx hacc => exact hpoint hy rfl
  | refuse hy hpc => exact hpoint hy rfl
  | slowClients n hy hpc => exact hshrink hy rfl fun d hd => hd
  | kickCount hy hpc => exact hshrink hy rfl fun d hd => hd
  | markSlow hy hpc hx hslow => exact hpoint hy rfl

end RoverState

/-! ## What the handler has read -/

/-- The row meets the filters of the request. -/
def ClientQuery.Passes (q : ClientQuery) (row : CliInfo) : Prop :=
  (q.mountFilter = [] ∨ row.mountPoint = q.mountFilter) ∧
    (q.usernameFilter = [] ∨ row.username = q.usernameFilter)

/-- `clients` have been read from the mountpoints in `ms` but not in `todo`: each once, and without
a filter for the user name all those that have been registered since the server was in state
`s₀`. -/
structure Collected (q : ClientQuery) (s₀ : RoverState) (ms : List ℕ) (s : RoverState)
    (clients : List Client) (todo : List ℕ) : Prop where
  todo_nodup : todo.Nodup
  todo_sub : ∀ m ∈ todo, m ∈ ms
  nodup : (clients.map Client.ref).Nodup
  known : ∀ c ∈ clients, ∃ x, s.sessions[c.ref]? = some x ∧ x.client = c ∧
    x.pc.admitted = true ∧ x.mount ∈ ms ∧ x.mount ∉ todo
  joined : ∀ (m : ℕ) (mt₀ : Mount), s₀.mounts[m]? = some mt₀ → (∃ mt, s.mounts[m]? = some mt) ∧
    ∀ c ∈ mt₀.point.snapshot, ∃ x, s.sessions[c.ref]? = some x ∧ x.pc.admitted = true
  complete : q.usernameFilter = [] → ∀ m ∈ ms, m ∉ todo → ∀ mt₀ mt, s₀.mounts[m]? = some mt₀ →
    s.mounts[m]? = some mt → (q.mountFilter = [] ∨ mt.point.name = q.mountFilter) →
      ∀ c ∈ mt₀.point.snapshot, c ∈ mt.point.snapshot → c ∈ clients

namespace Collected

variable {q : ClientQuery} {s₀ s s' : RoverState} {ms todo : List ℕ} {clients : List Client} {m : ℕ}
  {mt : Mount}

theorem start (h₀ : Known s₀.mounts s₀.sessions) (hms : ms.Nodup) :
    Collected q s₀ ms s₀ [] ms where
  todo_nodup := hms
  todo_sub _ hm := hm
  nodup := List.nodup_nil
  known c hc := by cases hc
  joined m mt₀ hmt := by
    refine ⟨⟨mt₀, hmt⟩, fun c hc => ?_⟩
    obtain ⟨x, hx, -, -, hreg⟩ := h₀.snapshot m mt₀ hmt c hc
    exact ⟨x, hx, RoverPC.admitted_of_registered hreg⟩
  complete _ m hm hno := absurd hm hno

/-- The server goes on. -/
theorem server {a : RoverStep} (h : Collected q s₀ ms s clients todo)
    (hk : Known s.mounts s.sessions) (hstep : s.step a = some s') :
    Collected q s₀ ms s' clients todo where
  todo_nodup := h.todo_nodup
  todo_sub := h.todo_sub
  nodup := h.nodup
  known c hc := by
    obtain ⟨x, hx, hclient, hadm, hmount⟩ := h.known c hc
    obtain ⟨x', hx', hgrows⟩ := RoverState.session_step hstep hx
    obtain ⟨hadm', hclient'⟩ := hgrows.admitted hadm
    exact ⟨x', hx', hclient'.trans hclient, hadm', by rwa [hgrows.mount]⟩
  joined m mt₀ hmt₀ := by
    obtain ⟨⟨mt, hmt⟩, hjoined⟩ := h.joined m mt₀ hmt₀
    obtain ⟨mt', hmt', -⟩ := RoverState.mount_step hk hstep hmt
    refine ⟨⟨mt', hmt'⟩, fun c hc => ?_⟩
    obtain ⟨x, hx, hadm⟩ := hjoined c hc
    obtain ⟨x', hx', hgrows⟩ := RoverState.session_step hstep hx
    exact ⟨x', hx', (hgrows.admitted hadm).1⟩
  complete huser m hm hno mt₀ mt' hmt₀ hmt' hname c hc hc' := by
    obtain ⟨⟨mt, hmt⟩, hjoined⟩ := h.joined m mt₀ hmt₀
    obtain ⟨mt'', hmt'', hname', hsnap⟩ := RoverState.mount_step hk hstep hmt
    obtain rfl := Option.some.inj (hmt''.symm.trans hmt')
    -- a client that was admitted at the start has not just joined
    rcases hsnap c hc' with hold | ⟨x, hx, hadm⟩
    · exact h.complete huser m hm hno mt₀ mt hmt₀ hmt (hname' ▸ hname) c hc hold
    · obtain ⟨y, hy, hadm'⟩ := hjoined c hc
      obtain rfl := Option.some.inj (hx.symm.trans hy)
      exact absurd (hadm.symm.trans hadm') (by decide)

/-- A mountpoint of another name is passed over. -/
theorem skip (h : Collected q s₀ ms s clients (m :: todo)) (hmt : s.mounts[m]? = some mt)
    (hname : q.mountFilter ≠ [] ∧ mt.point.name ≠ q.mountFilter) :
    Collected q s₀ ms s clients todo where
  todo_nodup := (List.nodup_cons.mp h.todo_nodup).2
  todo_sub m' hm' := h.todo_sub m' (List.mem_cons_of_mem m hm')
  nodup := h.nodup
  known c hc := by
    obtain ⟨x, hx, hclient, hadm, hmem, hno⟩ := h.known c hc
    exact ⟨x, hx, hclient, hadm, hmem, fun ht => hno (List.mem_cons_of_mem m ht)⟩
  joined := h.joined
  complete huser m' hm' hno mt₀ mt' hmt₀ hmt' hpass c hc hc' := by
    by_cases hmm : m' = m
    · subst hmm
      obtain rfl := Option.some.inj (hmt.symm.trans hmt')
      exact (hpass.elim hname.1 hname.2).elim
    · exact h.complete huser m' hm' (fun ht => (List.mem_cons.mp ht).elim hmm hno) mt₀ mt' hmt₀
        hmt' hpass c hc hc'

/-- The clients of a mountpoint are read. -/
theorem read (h : Collected q s₀ ms s clients (m :: todo)) (hk : Known s.mounts s.sessions)
    (hmt : s.mounts[m]? = some mt) (ord : RangeOrder Client) :
    Collected q s₀ ms s (clients ++ ord.visit mt.point.clientsByID.values) todo := by
  have hrep := hk.rep m mt hmt
  have hperm := (ord.visit_perm mt.point.clientsByID.values).trans hrep.snapshot_perm.symm
  have hnew : ∀ c ∈ ord.visit mt.point.clientsByID.values, Registered s.sessions m c :=
    fun c hc => hk.snapshot m mt hmt c (hperm.mem_iff.mp hc)
  refine ⟨(List.nodup_cons.mp h.todo_nodup).2, fun m' hm' => h.todo_sub m' ?_, ?_, ?_, h.joined, ?_⟩
  · exact List.mem_cons_of_mem m hm'
  · rw [List.map_append, List.nodup_append']
    refine ⟨h.nodup, ?_, ?_⟩
    · refine (hperm.nodup_iff.mpr hrep.nodup_snapshot).map_on fun c hc d hd hcd => ?_
      obtain ⟨x, hx, rfl, -⟩ := hnew c hc
      obtain ⟨y, hy, rfl, -⟩ := hnew d hd
      rw [hcd] at hx
      rw [Option.some.inj (hx.symm.trans hy)]
    · intro r hr hr'
      obtain ⟨c, hc, rfl⟩ := List.mem_map.mp hr
      obtain ⟨d, hd, hcd⟩ := List.mem_map.mp hr'
      obtain ⟨x, hx, -, -, -, hno⟩ := h.known c hc
      obtain ⟨y, hy, -, hmount, -⟩ := hnew d hd
      rw [hcd] at hy
      obtain rfl := Option.some.inj (hx.symm.trans hy)
      exact hno (hmount ▸ List.mem_cons_self)
  · intro c hc
    rcases List.mem_append.mp hc with hc | hc
    · obtain ⟨x, hx, hclient, hadm, hmem, hno⟩ := h.known c hc
      exact ⟨x, hx, hclient, hadm, hmem, fun ht => hno (List.mem_cons_of_mem m ht)⟩
    · obtain ⟨x, hx, hclient, rfl, hreg⟩ := hnew c hc
      exact ⟨x, hx, hclient, RoverPC.admitted_of_registered hreg,
        h.todo_sub _ List.mem_cons_self, (List.nodup_cons.mp h.todo_nodup).1⟩
  · intro huser m' hm' hno mt₀ mt' hmt₀ hmt' hpass c hc hc'
    by_cases hmm : m' = m
    · subst hmm
      obtain rfl := Option.some.inj (hmt.symm.trans hmt')
      exact List.mem_append_right _ (hperm.mem_iff.mpr hc')
    · exact List.mem_append_left _ (h.complete huser m' hm'
        (fun ht => (List.mem_cons.mp ht).elim hmm hno) mt₀ mt' hmt₀ hmt' hpass c hc hc')

/-- A row is left out for its user name. -/
theorem sublist {clients' : List Client} (h : Collected q s₀ ms s clients todo)
    (hsub : clients'.Sublist clients) (huser : q.usernameFilter ≠ []) :
    Collected q s₀ ms s clients' todo where
  todo_nodup := h.todo_nodup
  todo_sub := h.todo_sub
  nodup := h.nodup.sublist (hsub.map _)
  known c hc := h.known c (hsub.subset hc)
  joined := h.joined
  complete hnil := absurd hnil huser

end Collected

namespace ListClients

/-- The invariant of the handler on a server. -/
structure Listed (q : ClientQuery) (s₀ : RoverState) (ms : List ℕ) (s : RoverState)
    (l : ListClients) : Prop where
  collected : Collected q s₀ ms s l.clients l.pc.todo
  reading : ∀ m, l.pc.mount = some m → ∃ mt, s.mounts[m]? = some mt ∧
    (q.mountFilter = [] ∨ mt.point.name = q.mountFilter) ∧
      ∀ c ∈ l.pc.infos.map ClientInfo.client ++ l.pc.left,
        ∃ x, s.sessions[c.ref]? = some x ∧ x.mount = m
  infos : ∀ info ∈ l.pc.infos, ∃ x, s.sessions[info.client.ref]? = some x ∧
    info.bytesOut ≤ x.bytesOut
  rows : ∀ row ∈ l.result, q.Passes row ∧ ∃ x mt, s.sessions[row.client.ref]? = some x ∧
    s.mounts[x.mount]? = some mt ∧ mt.point.name = row.mountPoint ∧ row.bytesOut ≤ x.bytesOut

variable {q : ClientQuery} {s₀ s s' : RoverState} {ms : List ℕ} {l l' : ListClients}

theorem Listed.start (h₀ : Known s₀.mounts s₀.sessions) (hms : ms.Nodup) :
    Listed q s₀ ms s₀ ⟨.mounts ms, []⟩ where
  collected := .start h₀ hms
  reading m hm := by cases hm
  infos info hinfo := by cases hinfo
  rows row hrow := by cases hrow

theorem Listed.server {a : RoverStep} (h : Listed q s₀ ms s l)
    (hk : Known s.mounts s.sessions) (hstep : s.step a = some s') : Listed q s₀ ms s' l where
  collected := h.collected.server hk hstep
  reading m hm := by
    obtain ⟨mt, hmt, hpass, hclients⟩ := h.reading m hm
    obtain ⟨mt', hmt', hname, -⟩ := RoverState.mount_step hk hstep hmt
    refine ⟨mt', hmt', by rwa [hname], fun c hc => ?_⟩
    obtain ⟨x, hx, hmount⟩ := hclients c hc
    obtain ⟨x', hx', hgrows⟩ := RoverState.session_step hstep hx
    exact ⟨x', hx', hgrows.mount.trans hmount⟩
  infos info hinfo := by
    obtain ⟨x, hx, hle⟩ := h.infos info hinfo
    obtain ⟨x', hx', hgrows⟩ := RoverState.session_step hstep hx
    exact ⟨x', hx', hle.trans hgrows.bytesOut⟩
  rows row hrow := by
    obtain ⟨hpass, x, mt, hx, hmt, hname, hle⟩ := h.rows row hrow
    obtain ⟨x', hx', hgrows⟩ := RoverState.session_step hstep hx
    obtain ⟨mt', hmt', hname', -⟩ := RoverState.mount_step hk hstep hmt
    exact ⟨hpass, x', mt', hx', by rwa [hgrows.mount], hname'.trans hname,
      hle.trans hgrows.bytesOut⟩

/-- The clients of the next mountpoint are read, or it is passed over. -/
theorem Listed.mounts (h : Listed q s₀ ms s l) (hk : Known s.mounts s.sessions) {m : ℕ}
    {todo : List ℕ} (hpc : l.pc = .mounts (m :: todo)) {mt : Mount} (hmt : s.mounts[m]? = some mt)
    (ord : RangeOrder Client) :
    Listed q s₀ ms s
      (if q.mountFilter ≠ [] ∧ mt.point.name ≠ q.mountFilter then { l with pc := .mounts todo }
        else { l with pc := .clientInfos m (ord.visit mt.point.clientsByID.values) [] todo }) := by
  have hcollected := h.collected
  unfold clients at hcollected
  rw [hpc] at hcollected
  split_ifs with hname
  · refine ⟨hcollected.skip hmt hname, fun m' hm' => ?_, fun info hinfo => ?_, h.rows⟩
    · cases hm'
    · cases hinfo
  · have hread := hcollected.read hk hmt ord
    rw [show ListClientsPC.infos (.mounts (m :: todo)) = [] from rfl] at hread
    refine ⟨by simpa [clients] using hread, fun m' hm' => ?_, fun info hinfo => ?_, h.rows⟩
    · obtain rfl := Option.some.inj hm'
      refine ⟨mt, hmt, ?_, fun c hc => ?_⟩
      · by_contra hno
        rw [not_or] at hno
        exact hname hno
      · have hperm := (ord.visit_perm _).trans (hk.rep m mt hmt).snapshot_perm.symm
        obtain ⟨x, hx, -, hmount, -⟩ := hk.snapshot m mt hmt c (hperm.mem_iff.mp hc)
        exact ⟨x, hx, hmount⟩
    · cases hinfo

/-- An entry becomes a row, unless its user name is filtered. -/
theorem Listed.row (h : Listed q s₀ ms s l) {m : ℕ} {info : ClientInfo} {left : List ClientInfo}
    {todo : List ℕ} (hpc : l.pc = .rows m (info :: left) todo) {mt : Mount}
    (hmt : s.mounts[m]? = some mt) (username : Bytes) :
    Listed q s₀ ms s
      (if q.usernameFilter ≠ [] ∧ username ≠ q.usernameFilter then
          { l with pc := .rows m left todo }
        else
          { pc := .rows m left todo
            result := l.result ++ [⟨mt.point.name, info.client, username, info.bytesOut⟩] }) := by
  obtain ⟨hcollected, hreading, hinfos, hrows⟩ := h
  unfold clients at hcollected
  rw [hpc] at hcollected hreading hinfos
  obtain ⟨mt', hmt', hpass, hclients⟩ := hreading m rfl
  obtain rfl := Option.some.inj (hmt'.symm.trans hmt)
  have hreading' : ∀ m', some m = some m' → ∃ mt, s.mounts[m']? = some mt ∧
      (q.mountFilter = [] ∨ mt.point.name = q.mountFilter) ∧
        ∀ c ∈ left.map ClientInfo.client ++ [],
          ∃ x, s.sessions[c.ref]? = some x ∧ x.mount = m' := by
    intro m' hm'
    obtain rfl := Option.some.inj hm'
    exact ⟨mt', hmt, hpass, fun c hc => hclients c (List.mem_cons_of_mem _ hc)⟩
  have hinfos' : ∀ i ∈ left, ∃ x, s.sessions[i.client.ref]? = some x ∧ i.bytesOut ≤ x.bytesOut :=
    fun i hi => hinfos i (List.mem_cons_of_mem info hi)
  split_ifs with huser
  · refine ⟨hcollected.sublist ?_ huser.1, hreading', hinfos', hrows⟩
    exact (List.Sublist.refl _).append ((List.sublist_cons_self _ _).append (.refl _))
  · refine ⟨by simpa [clients] using hcollected,
      hreading', hinfos', fun row hrow => ?_⟩
    rcases List.mem_append.mp hrow with hrow | hrow
    · exact hrows row hrow
    · obtain rfl := List.mem_singleton.mp hrow
      obtain ⟨x, hx, hmount⟩ := hclients info.client List.mem_cons_self
      obtain ⟨y, hy, hle⟩ := hinfos info List.mem_cons_self
      obtain rfl := Option.some.inj (hx.symm.trans hy)
      refine ⟨⟨hpass, ?_⟩, x, mt', hx, hmount ▸ hmt, rfl, hle⟩
      by_contra hno
      rw [not_or] at hno
      exact huser hno

/-- One step of the handler: the rows it has made, those of the mountpoint it is at and those it
has still to make account for every client that was online throughout. -/
theorem Listed.list (h : Listed q s₀ ms s l) (hk : Known s.mounts s.sessions)
    {ord : RangeOrder Client} {user : Option Bytes} (hstep : l.step q s ord user = some l') :
    Listed q s₀ ms s l' := by
  unfold ListClients.step at hstep
  split at hstep
  next => cases hstep
  next hpc =>
    obtain ⟨mt, hmt, rfl⟩ := Option.map_eq_some_iff.mp hstep
    exact h.mounts hk hpc hmt ord
  next m infos todo hpc =>
    obtain rfl := Option.some.inj hstep
    obtain ⟨hcollected, hreading, hinfos, hrows⟩ := h
    unfold clients at hcollected
    rw [hpc] at hcollected hreading hinfos
    exact ⟨by simpa [clients] using hcollected, hreading, hinfos, hrows⟩
  next m c left infos todo hpc =>
    obtain ⟨x, hx, rfl⟩ := Option.map_eq_some_iff.mp hstep
    obtain ⟨hcollected, hreading, hinfos, hrows⟩ := h
    unfold clients at hcollected
    rw [hpc] at hcollected hreading hinfos
    refine ⟨by simpa [clients] using hcollected, by simpa using hreading, fun info hinfo => ?_,
      hrows⟩
    rcases List.mem_append.mp hinfo with hinfo | hinfo
    · exact hinfos info hinfo
    · obtain rfl := List.mem_singleton.mp hinfo
      exact ⟨x, hx, le_rfl⟩
  next m todo hpc =>
    obtain rfl := Option.some.inj hstep
    obtain ⟨hcollected, hreading, hinfos, hrows⟩ := h
    unfold clients at hcollected
    rw [hpc] at hcollected
    refine ⟨by simpa [clients] using hcollected, fun m' hm' => ?_, fun info hinfo => ?_, hrows⟩
    · cases hm'
    · cases hinfo
  next hpc =>
    obtain ⟨mt, hmt, rfl⟩ := Option.map_eq_some_iff.mp hstep
    exact h.row hpc hmt _

end ListClients

/-- What the answer says of a server whose mountpoints `ms` were listed from state `s₀` on: no
session is listed twice; every row is about a session that a mountpoint of that name has accepted,
with no more bytes than its counter has by now, and it meets the filters; and a rover that was
registered all the time on a listed mountpoint of the right name is in the answer to a request
without a user name. -/
structure ListClientsState.Answers (q : ClientQuery) (s₀ : RoverState) (ms : List ℕ)
    (t : ListClientsState) : Prop where
  once : (t.handler.result.map fun row => row.client.ref).Nodup
  sound : ∀ row ∈ t.handler.result, q.Passes row ∧ ∃ x mt,
    t.server.sessions[row.client.ref]? = some x ∧ x.client = row.client ∧
    x.pc.admitted = true ∧ x.mount ∈ ms ∧ t.server.mounts[x.mount]? = some mt ∧
    mt.point.name = row.mountPoint ∧ row.bytesOut ≤ x.bytesOut
  complete : q.usernameFilter = [] → ∀ m ∈ ms, ∀ mt₀ mt, s₀.mounts[m]? = some mt₀ →
    t.server.mounts[m]? = some mt → (q.mountFilter = [] ∨ mt.point.name = q.mountFilter) →
      ∀ c ∈ mt₀.point.snapshot, c ∈ mt.point.snapshot → ∃ row ∈ t.handler.result, row.client = c

/-- **The listing of the rovers that are online** is right about a server that goes on while it is
made, in whatever order the steps of the two come. -/
theorem listClients_online {maxClients : ℤ} {q : ClientQuery} {s₀ : RoverState} {ms : List ℕ}
    {t : ListClientsState} (h₀ : (roverSystem maxClients).Reachable s₀) (hms : ms.Nodup)
    (h : (listClientsSystem q s₀ ms).Reachable t) (hdone : t.handler.pc = .mounts []) :
    t.Answers q s₀ ms := by
  have hlisted : (roverSystem maxClients).Reachable t.server ∧
      ListClients.Listed q s₀ ms t.server t.handler := by
    refine h.invariant (I := fun t => (roverSystem maxClients).Reachable t.server ∧
      ListClients.Listed q s₀ ms t.server t.handler) ?_ ?_
    · rintro t rfl
      exact ⟨h₀, .start (roverSystem_known h₀) hms⟩
    · intro t a t' _ ⟨hreach, hl⟩ hstep
      have hk := roverSystem_known hreach
      cases a with
      | server a =>
        obtain ⟨s', hs', rfl⟩ := Option.map_eq_some_iff.mp hstep
        exact ⟨.step hreach hs', hl.server hk hs'⟩
      | list ord user =>
        obtain ⟨l', hl', rfl⟩ := Option.map_eq_some_iff.mp hstep
        exact ⟨hreach, hl.list hk hl'⟩
  obtain ⟨-, hcollected, -, -, hrows⟩ := hlisted
  have hclients : t.handler.clients = t.handler.result.map CliInfo.client := by
    rw [ListClients.clients, hdone]
    simp
  rw [hclients, hdone] at hcollected
  refine ⟨?_, fun row hrow => ?_, fun huser m hm mt₀ mt hmt₀ hmt hpass c hc hc' => ?_⟩
  · have hnodup := hcollected.nodup
    rwa [List.map_map] at hnodup
  · obtain ⟨hpasses, x, mt, hx, hmt, hname, hle⟩ := hrows row hrow
    obtain ⟨y, hy, hclient, hadm, hmem, -⟩ := hcollected.known row.client (List.mem_map_of_mem hrow)
    obtain rfl := Option.some.inj (hx.symm.trans hy)
    exact ⟨hpasses, x, mt, hx, hclient, hadm, hmem, hmt, hname, hle⟩
  · have hc := hcollected.complete huser m hm (by simp) mt₀ mt hmt₀ hmt hpass c hc hc'
    exact List.mem_map.mp hc

/-- A rover joins mountpoint `M`. -/
def joinM : List RoverStep :=
  [.operate 0 (.setSource ⟨0, ascii "s", 0⟩), .connect 0 (ascii "a") 7] ++
    List.replicate 6 (.handler 0 .stored .ok)

/-- The rover is listed while a packet is sent to it. -/
def listWhileSending : List ListClientsStep :=
  let list : ListClientsStep := .list .stored (some (ascii "rover"))
  [list, .server (.broadcast 0 ⟨[1, 2]⟩), list] ++
    List.replicate 2 (.server (.deliver 0 .writeChan)) ++
    [.server (.writeLoop 0 .writeChan .stored .ok), list,
      .server (.writeLoop 0 .writeChan .stored .ok), list, list]

theorem listClients_online_sending :
    ∃ s₀ t, (roverSystem 8).run (oneMount 8) joinM = some s₀ ∧
      (listClientsSystem ⟨ascii "M", []⟩ s₀ [0]).run ⟨s₀, ⟨.mounts [0], []⟩⟩ listWhileSending =
        some t ∧
      (t.handler.result.map fun row => (row.client.ref, row.username, row.bytesOut)) =
        [(0, ascii "rover", 0)] ∧
      t.server.sessions.map Session.bytesOut = [2] ∧ t.Answers ⟨ascii "M", []⟩ s₀ [0] := by
  obtain ⟨s₀, t, hs, ht, hdone, hresult, hbytes⟩ :
      ∃ s₀ t, (roverSystem 8).run (oneMount 8) joinM = some s₀ ∧
        (listClientsSystem ⟨ascii "M", []⟩ s₀ [0]).run ⟨s₀, ⟨.mounts [0], []⟩⟩ listWhileSending =
          some t ∧
        t.handler.pc = .mounts [] ∧
        (t.handler.result.map fun row => (row.client.ref, row.username, row.bytesOut)) =
          [(0, ascii "rover", 0)] ∧
        t.server.sessions.map Session.bytesOut = [2] := ⟨_, _, rfl, rfl, rfl, rfl, rfl⟩
  refine ⟨s₀, t, hs, ht, hresult, hbytes, ?_⟩
  exact listClients_online (.of_run _ (oneMount_init 8) hs) (List.nodup_singleton 0)
    (.of_run _ rfl ht) hdone

end NtripCaster
