import NtripCaster.Api.Online
import NtripCaster.Rover.Teardown

/-!
# KickClient

`KickClient` of `internal/api/handlers.go` calls `KickClient` of one mountpoint after the other, as
`Manager.List` has returned them, while the server goes on: rovers come and go, packets are
broadcast, and others take rovers off the same mountpoints.

## Main definitions

* `KickClientPC`, `KickClientState`, `kickClientSystem`: the handler and the server, in any order
  of steps
* `RoverState.On`, `RoverState.TakesOff`: a client is registered, and a step ends this

## Main results

* `RoverState.kickClient_step`: what the handler does to one mountpoint
* `Session.Goes.silent`: nothing is written to a closed connection
* `kickClient_final`: who is off its mountpoint when the answer is sent
-/

namespace NtripCaster

open Transition

/-- Where the handler stands: at the head of its loop over the mountpoints, or in `KickClient` of
one, behind the unlock, with what teardown `j` has to kick. -/
inductive KickClientPC
  | mounts (todo : List ℕ)
  | kick (j : ℕ) (todo : List ℕ)
  deriving DecidableEq, Repr

/-- The mountpoints whose turn is still to come. -/
@[simp] def KickClientPC.todo : KickClientPC → List ℕ
  | mounts todo | kick _ todo => todo

/-- A server and a handler on it. -/
structure KickClientState where
  server : RoverState
  pc : KickClientPC

/-- A step of the server, the critical section on the next mountpoint, or the return from there.
The kick in between is a teardown of the server. -/
inductive KickClientStep
  | server (a : RoverStep)
  | lock (ord : RangeOrder Client)
  | next

namespace KickClientState

variable (t : KickClientState)

/-- The server makes a step, or the handler of `KickClient`: it enters the critical section of the
next mountpoint, or closes the client that it has found there. -/
def step (id : Bytes) : KickClientStep → Option KickClientState
  | .server a => (t.server.step a).map fun s => { t with server := s }
  | .lock ord =>
    match t.pc with
    | .mounts (m :: todo) =>
      (t.server.step (.operate m (.kickClient ord id))).map fun s =>
        ⟨s, .kick t.server.teardowns.length todo⟩
    | _ => none
  | .next =>
    match t.pc with
    | .kick j todo =>
      if t.server.teardowns[j]? = some [] then some { t with pc := .mounts todo } else none
    | _ => none

end KickClientState

/-- The handler for the client `id`, from the return of `Manager.List` with the mountpoints `ms` on
a server in state `s₀`. -/
def kickClientSystem (id : Bytes) (s₀ : RoverState) (ms : List ℕ) :
    System KickClientState KickClientStep where
  init t := t = ⟨s₀, .mounts ms⟩
  step t := t.step id

/-! ## What the handler does -/

/-- Nothing is written to a closed connection. -/
theorem Session.Goes.silent {x x' : Session} (h : x.Goes x') (hx : x.closeOnce = .connClosed) :
    x'.wire = x.wire ∧ x'.bytesOut = x.bytesOut := by
  have hclosed : x.writable = false := by simp [Session.writable, hx]
  have hwrite : ∀ {b : Bytes} {r : WriteResult} {y : Session} {ok : Bool},
      x.connWrite b r = some (y, ok) → y = x ∧ ok = false := by
    intro b r y ok hw
    cases r with
    | ok => simp [Session.connWrite, hclosed] at hw
    | fails n =>
      obtain ⟨rfl, rfl⟩ : x = y ∧ false = ok := by simpa [Session.connWrite, hclosed] using hw
      exact ⟨rfl, rfl⟩
  have hkick : x.kick = x := by simp [Session.kick, hx]
  cases h with
  | reject hpc hr =>
    obtain ⟨⟨y, ok⟩, hw, rfl⟩ := Option.map_eq_some_iff.mp hr
    obtain ⟨rfl, -⟩ := hwrite hw
    exact ⟨rfl, rfl⟩
  | check => exact ⟨rfl, rfl⟩
  | addClient => exact ⟨rfl, rfl⟩
  | add => exact ⟨rfl, rfl⟩
  | respond hpc hr =>
    obtain ⟨⟨y, ok⟩, hw, rfl⟩ := Option.map_eq_some_iff.mp hr
    obtain ⟨rfl, -⟩ := hwrite hw
    exact ⟨rfl, rfl⟩
  | writeLoop hr =>
    unfold Session.writeLoop at hr
    split at hr
    · obtain ⟨-, hr⟩ := Option.ite_none_right_eq_some.mp hr
      exact Option.some.inj hr ▸ ⟨rfl, rfl⟩
    · obtain ⟨-, hr⟩ := Option.ite_none_right_eq_some.mp hr
      exact Option.some.inj hr ▸ ⟨rfl, rfl⟩
    · split at hr
      · cases hr
      · exact Option.some.inj hr ▸ ⟨rfl, rfl⟩
    · obtain ⟨⟨y, ok⟩, hw, rfl⟩ := Option.map_eq_some_iff.mp hr
      obtain ⟨rfl, rfl⟩ := hwrite hw
      simp [hkick]
    · obtain ⟨-, hr⟩ := Option.ite_none_right_eq_some.mp hr
      exact Option.some.inj hr ▸ ⟨rfl, rfl⟩
    · cases hr
  | removeClient => exact ⟨rfl, rfl⟩
  | release => exact ⟨rfl, rfl⟩
  | watch hr =>
    unfold Session.watch at hr
    split at hr
    · rw [hkick] at hr
      exact Option.some.inj hr ▸ ⟨rfl, rfl⟩
    · obtain ⟨-, hr⟩ := Option.ite_none_right_eq_some.mp hr
      exact Option.some.inj hr ▸ ⟨rfl, rfl⟩
    · cases hr
  | closeConn hr =>
    obtain ⟨-, hr⟩ := Option.ite_none_right_eq_some.mp hr
    exact Option.some.inj hr ▸ ⟨rfl, rfl⟩
  | kick => rw [hkick]; exact ⟨rfl, rfl⟩
  | trySend hr =>
    unfold Session.trySend at hr
    split at hr
    · exact Option.some.inj hr ▸ ⟨rfl, rfl⟩
    · obtain ⟨-, hr⟩ := Option.ite_none_right_eq_some.mp hr
      exact Option.some.inj hr ▸ ⟨rfl, rfl⟩
  | slow => exact ⟨rfl, rfl⟩

/-- `KickClient` of a mountpoint takes the client of this ID off, and nobody else. -/
theorem MountPoint.Rep.mem_snapshot_kickClient {mp : MountPoint} (h : mp.Rep)
    (ord : RangeOrder Client) (id : Bytes) {c : Client} :
    (c ∈ (mp.kickClient ord id).1.snapshot ↔ c ∈ mp.snapshot ∧ c.id ≠ id) ∧
      (c ∈ mp.snapshot → c.id = id → c ∈ (mp.kickClient ord id).2.kick) := by
  have hrep := h.kickClient ord id
  rw [hrep.mem_snapshot, h.mem_snapshot]
  unfold MountPoint.kickClient
  cases hid : mp.clientsByID.lookup id with
  | none =>
    refine ⟨⟨fun hc => ⟨hc, ?_⟩, And.left⟩, fun hc heq => ?_⟩
    · rintro rfl
      rw [hid] at hc
      cases hc
    · rw [heq, hid] at hc
      cases hc
  | some d =>
    refine ⟨?_, fun hc heq => ?_⟩
    · exact GoMap.lookup_erase_eq_some.trans and_comm
    · rw [heq, hid] at hc
      exact List.mem_singleton.mpr (Option.some.inj hc).symm

namespace RoverState

variable {s s' : RoverState} {m k : ℕ} {c : Client}

/-- The client is registered on mountpoint `m`. -/
def On (s : RoverState) (m : ℕ) (c : Client) : Prop :=
  ∃ mt, s.mounts[m]? = some mt ∧ c ∈ mt.point.snapshot

/-- The step ends the registration of the client on mountpoint `m`. -/
def TakesOff (s : RoverState) (a : RoverStep) (m : ℕ) (c : Client) : Prop :=
  s.On m c ∧ ∃ s', s.step a = some s' ∧ ¬ s'.On m c

/-- Who is registered after a critical section on mountpoint `k`. -/
theorem on_setMount {mt mt' : Mount} (hmt : s.mounts[k]? = some mt) {l : List (List Client)} :
    On { s.setMount k mt' with teardowns := l } m c ↔
      if m = k then c ∈ mt'.point.snapshot else s.On m c := by
  unfold On
  show (∃ mt'', (s.mounts.set k mt')[m]? = some mt'' ∧ _) ↔ _
  split_ifs with hmk
  · rw [hmk, getElem?_set_of_eq_some hmt]
    simp
  · rw [List.getElem?_set_ne (Ne.symm hmk)]

/-- `KickClient` of mountpoint `k` takes the client of this ID off, whom its teardown has to kick,
and nobody else. -/
theorem kickClient_step (hk : Known s.mounts s.sessions) {ord : RangeOrder Client} {id : Bytes}
    (h : s.step (.operate k (.kickClient ord id)) = some s') :
    (s'.On m c ↔ s.On m c ∧ (m = k → c.id ≠ id)) ∧
      (s.On m c → ¬ s'.On m c → s'.Kicking s.teardowns.length c) := by
  obtain ⟨mt, hmt, rfl⟩ := Option.map_eq_some_iff.mp h
  obtain ⟨hpoint, hkicked⟩ := (hk.rep k mt hmt).mem_snapshot_kickClient ord id (c := c)
  rw [on_setMount hmt]
  split_ifs with hmk
  · have hon : s.On m c ↔ c ∈ mt.point.snapshot := by
      rw [hmk, On, hmt]
      simp
    rw [hon]
    refine ⟨hpoint.trans (and_congr_right fun _ => ⟨fun hne _ => hne, fun hne => hne hmk⟩),
      fun hc hoff => ⟨_, List.getElem?_concat_length, hkicked hc ?_⟩⟩
    by_contra hne
    exact hoff (hpoint.mpr ⟨hc, hne⟩)
  · exact ⟨⟨fun hc => ⟨hc, fun heq => absurd heq hmk⟩, And.left⟩, fun hc hoff => absurd hc hoff⟩

/-- A client that was registered and is not any more does not come back. -/
theorem left_step {a : RoverStep} (hk : Known s.mounts s.sessions) (h : s.step a = some s')
    {x : Session} (hx : s.sessions[c.ref]? = some x) (hadm : x.pc.admitted = true)
    (hm : ∃ mt, s.mounts[m]? = some mt) (hoff : ¬ s.On m c) : ¬ s'.On m c := by
  rintro ⟨mt', hmt', hc⟩
  obtain ⟨mt, hmt⟩ := hm
  obtain ⟨mt'', hmt'', -, hsnap⟩ := mount_step hk h hmt
  obtain rfl := Option.some.inj (hmt''.symm.trans hmt')
  rcases hsnap c hc with hold | ⟨y, hy, hno⟩
  · exact hoff ⟨mt, hmt, hold⟩
  · obtain rfl := Option.some.inj (hx.symm.trans hy)
    rw [hadm] at hno
    cases hno

/-- Nothing is written to a closed connection, whatever the server does. -/
theorem Closed.silent {maxClients : ℤ} {as : List RoverStep} (h : s.Closed c)
    (hrun : (roverSystem maxClients).run s as = some s') :
    (s'.sessions[c.ref]?).map Session.wire = (s.sessions[c.ref]?).map Session.wire := by
  have hkeeps : s'.Closed c ∧
      (s'.sessions[c.ref]?).map Session.wire = (s.sessions[c.ref]?).map Session.wire := by
    refine System.run_keeps (S := roverSystem maxClients) (I := fun r => r.Closed c ∧
      (r.sessions[c.ref]?).map Session.wire = (s.sessions[c.ref]?).map Session.wire) ?_ ⟨h, rfl⟩
      hrun
    rintro r a r' ⟨hclosed, hwire⟩ hstep
    refine ⟨hclosed.step hstep, Eq.trans ?_ hwire⟩
    obtain ⟨x, hx, hcl⟩ := hclosed
    obtain ⟨x', hx', hsilent⟩ := ((step_goes hstep).mono fun _ _ hgoes hcl =>
      (hgoes.silent hcl).1).exists_getElem? (fun _ _ => rfl) hx
    rw [hx', hx]
    exact congrArg some (hsilent hcl)
  exact hkeeps.2

end RoverState

/-! ## A run of the handler -/

namespace KickClientState

variable {id : Bytes} {t t' : KickClientState} {a : KickClientStep} {m : ℕ} {c : Client}

/-- What a step can do. -/
inductive Effect (id : Bytes) (t : KickClientState) : KickClientStep → KickClientState → Prop
  | server {b : RoverStep} {s : RoverState} (h : t.server.step b = some s) :
    Effect id t (.server b) { t with server := s }
  | lock {ord : RangeOrder Client} {m : ℕ} {todo : List ℕ} {s : RoverState}
      (hpc : t.pc = .mounts (m :: todo))
      (h : t.server.step (.operate m (.kickClient ord id)) = some s) :
    Effect id t (.lock ord) ⟨s, .kick t.server.teardowns.length todo⟩
  | next {j : ℕ} {todo : List ℕ} (hpc : t.pc = .kick j todo)
      (h : t.server.teardowns[j]? = some []) : Effect id t .next { t with pc := .mounts todo }

theorem step_effect (h : t.step id a = some t') : Effect id t a t' := by
  cases a with
  | server b =>
    obtain ⟨s, hs, rfl⟩ := Option.map_eq_some_iff.mp h
    exact .server hs
  | lock ord =>
    simp only [step] at h
    split at h
    next hpc =>
      obtain ⟨s, hs, rfl⟩ := Option.map_eq_some_iff.mp h
      exact .lock hpc hs
    next => cases h
  | next =>
    simp only [step] at h
    split at h
    next hpc =>
      obtain ⟨hnil, h⟩ := Option.ite_none_right_eq_some.mp h
      exact Option.some.inj h ▸ .next hpc hnil
    next => cases h

/-- The handler does what the server can do. -/
theorem reachable_step {maxClients : ℤ} (h : (roverSystem maxClients).Reachable t.server)
    (hstep : t.step id a = some t') : (roverSystem maxClients).Reachable t'.server := by
  cases step_effect hstep with
  | server hs => exact .step h hs
  | @lock ord m todo s hpc hs => exact .step (a := .operate m (.kickClient ord id)) h hs
  | next => exact h

/-- The client is closed, or the handler is about to close it. -/
def Caught (t : KickClientState) (c : Client) : Prop :=
  t.server.Closed c ∨ ∃ j todo, t.pc = .kick j todo ∧ t.server.Kicking j c

theorem Caught.step (h : t.Caught c) (hstep : t.step id a = some t') : t'.Caught c := by
  cases step_effect hstep with
  | server hs =>
    rcases h with h | ⟨j, todo, hpc, hj⟩
    · exact .inl (h.step hs)
    · exact (RoverState.settled_step (.inr hj) hs).imp_right fun hj => ⟨j, todo, hpc, hj⟩
  | lock hpc hs =>
    rcases h with h | ⟨j, todo, hpc', -⟩
    · exact .inl (h.step hs)
    · rw [hpc] at hpc'
      cases hpc'
  | next hpc hnil =>
    rcases h with h | ⟨j, todo, hpc', hj⟩
    · exact .inl h
    · -- the teardown is through, so it has closed the client
      rw [hpc] at hpc'
      cases hpc'
      exact absurd hj (RoverState.not_kicking_nil hnil c)

/-- The mountpoints have their turn in the order of the list. -/
theorem todo_step (hstep : t.step id a = some t') : t'.pc.todo <:+ t.pc.todo := by
  cases step_effect hstep with
  | server hs => exact List.suffix_rfl
  | lock hpc hs =>
    rw [hpc]
    exact List.suffix_cons _ _
  | next hpc hnil =>
    rw [hpc]
    exact List.suffix_rfl

/-- A client that a step of the handler takes off has the ID of the request. -/
theorem ends_on (hk : Known t.server.mounts t.server.sessions) (hstep : t.step id a = some t')
    (hon : t.server.On m c) (hoff : ¬ t'.server.On m c) :
    (∃ b, a = .server b ∧ t.server.TakesOff b m c) ∨
      m ∈ t.pc.todo ∧ c.id = id ∧ t'.Caught c := by
  cases step_effect hstep with
  | server hs => exact .inl ⟨_, rfl, hon, _, hs, hoff⟩
  | @lock ord k todo s hpc hs =>
    obtain ⟨hiff, hkicked⟩ := RoverState.kickClient_step (m := m) (c := c) hk hs
    have hturn : m = k ∧ c.id = id := by
      by_contra hno
      exact hoff (hiff.mpr ⟨hon, fun hm hid => hno ⟨hm, hid⟩⟩)
    refine .inr ⟨?_, hturn.2, .inr ⟨_, _, rfl, hkicked hon hoff⟩⟩
    rw [hpc, hturn.1]
    exact List.mem_cons_self
  | next hpc hnil => exact absurd hon hoff

/-- The client is registered on mountpoint `m` only as long as the turn of this has not come. -/
structure Awaits (id : Bytes) (m : ℕ) (c : Client) (t : KickClientState) : Prop where
  mount : ∃ mt, t.server.mounts[m]? = some mt
  admitted : ∃ x, t.server.sessions[c.ref]? = some x ∧ x.pc.admitted = true
  off : m ∈ t.pc.todo ∨ ¬ t.server.On m c

/-- While the turn of the mountpoint has not come the client may be on it; after that it is off,
and no step of the server brings an admitted client back. -/
theorem Awaits.step (h : Awaits id m c t) (hid : c.id = id)
    (hk : Known t.server.mounts t.server.sessions) (hstep : t.step id a = some t') :
    Awaits id m c t' := by
  obtain ⟨⟨mt, hmt⟩, ⟨x, hx, hadm⟩, hoff⟩ := h
  have hserver : ∀ {b : RoverStep} {s : RoverState}, t.server.step b = some s →
      (∃ mt, s.mounts[m]? = some mt) ∧
      (∃ x, s.sessions[c.ref]? = some x ∧ x.pc.admitted = true) ∧
      (¬ t.server.On m c → ¬ s.On m c) := by
    intro b s hs
    obtain ⟨mt', hmt', -⟩ := RoverState.mount_step hk hs hmt
    obtain ⟨x', hx', hgrows⟩ := RoverState.session_step hs hx
    exact ⟨⟨mt', hmt'⟩, ⟨x', hx', (hgrows.admitted hadm).1⟩,
      RoverState.left_step hk hs hx hadm ⟨mt, hmt⟩⟩
  cases step_effect hstep with
  | server hs =>
    obtain ⟨hm, hc, hleft⟩ := hserver hs
    exact ⟨hm, hc, hoff.imp_right hleft⟩
  | lock hpc hs =>
    obtain ⟨hm, hc, hleft⟩ := hserver hs
    refine ⟨hm, hc, ?_⟩
    rcases hoff with htodo | hoff
    · rw [hpc] at htodo
      rcases List.mem_cons.mp htodo with rfl | htodo
      · exact .inr fun hon => ((RoverState.kickClient_step hk hs).1.mp hon).2 rfl hid
      · exact .inl htodo
    · exact .inr (hleft hoff)
  | next hpc hnil =>
    rw [hpc] at hoff
    exact ⟨⟨mt, hmt⟩, ⟨x, hx, hadm⟩, hoff⟩

end KickClientState

section Run

variable {maxClients : ℤ} {s₀ : RoverState} {id : Bytes} {ms : List ℕ} {u t : KickClientState}
  {bs : List KickClientStep} {m : ℕ} {c : Client}

theorem kickClientSystem_server (h₀ : (roverSystem maxClients).Reachable s₀)
    (h : (kickClientSystem id s₀ ms).Reachable t) : (roverSystem maxClients).Reachable t.server :=
  h.invariant (I := fun t => (roverSystem maxClients).Reachable t.server)
    (fun t ht => by rw [show t = _ from ht]; exact h₀)
    fun t a t' _ hreach hstep => KickClientState.reachable_step hreach hstep

/-- The mountpoints whose turn is still to come at the end of a run had it to come before. -/
theorem todo_run (hrun : (kickClientSystem id s₀ ms).run u bs = some t) :
    t.pc.todo <:+ u.pc.todo :=
  System.run_keeps (S := kickClientSystem id s₀ ms) (I := fun t => t.pc.todo <:+ u.pc.todo)
    (fun _ _ _ h hstep => (KickClientState.todo_step hstep).trans h) List.suffix_rfl hrun

/-- A client of this ID is off the mountpoints at the end. -/
theorem kickClient_off (h₀ : (roverSystem maxClients).Reachable s₀)
    (hu : (kickClientSystem id s₀ ms).Reachable u)
    (hrun : (kickClientSystem id s₀ ms).run u bs = some t) (hend : t.pc = .mounts [])
    (hon : u.server.On m c) (hm : m ∈ u.pc.todo) (hid : c.id = id) : ¬ t.server.On m c := by
  obtain ⟨mt, hmt, hc⟩ := hon
  obtain ⟨x, hx, -, -, hreg⟩ := (roverSystem_known (kickClientSystem_server h₀ hu)).snapshot m mt
    hmt c hc
  have hstart : KickClientState.Awaits id m c u :=
    ⟨⟨mt, hmt⟩, ⟨x, hx, RoverPC.admitted_of_registered hreg⟩, .inl hm⟩
  have hawaits : (roverSystem maxClients).Reachable t.server ∧ KickClientState.Awaits id m c t :=
    System.run_keeps (S := kickClientSystem id s₀ ms)
      (I := fun t => (roverSystem maxClients).Reachable t.server ∧
        KickClientState.Awaits id m c t)
      (fun t a t' ⟨hreach, h⟩ hstep => ⟨KickClientState.reachable_step hreach hstep,
        h.step hid (roverSystem_known hreach) hstep⟩)
      ⟨kickClientSystem_server h₀ hu, hstart⟩ hrun
  have hoff := hawaits.2.off
  rw [hend] at hoff
  exact hoff.resolve_left (by simp)

end Run

/-- What has become of a client of mountpoint `m` at the end `t` of a request, after the steps `bs`
from a moment `u` on. If it has the ID of the request and the turn of the mountpoint was still to
come, it is off. And if it is off, a step of the server itself has taken it off; or it has this ID,
its connection is closed, and the server never writes to it again. -/
structure KickClientState.Outcome (S : System KickClientState KickClientStep) (maxClients : ℤ)
    (id : Bytes) (u : KickClientState) (bs : List KickClientStep) (t : KickClientState) (m : ℕ)
    (c : Client) : Prop where
  off : m ∈ u.pc.todo → c.id = id → ¬ t.server.On m c
  only : ¬ t.server.On m c →
    (∃ as b cs v, bs = as ++ .server b :: cs ∧ S.run u as = some v ∧ v.server.TakesOff b m c) ∨
    m ∈ u.pc.todo ∧ c.id = id ∧ t.server.Closed c ∧
      ∀ as s, (roverSystem maxClients).run t.server as = some s →
        (s.sessions[c.ref]?).map Session.wire = (t.server.sessions[c.ref]?).map Session.wire

/-- **`KickClient` takes off the client that it should and nobody else**, in whatever order the
steps of the handler and of the server come, and before the answer is sent its connection is
closed. -/
theorem kickClient_final {maxClients : ℤ} {s₀ : RoverState} {id : Bytes} {ms : List ℕ}
    {u t : KickClientState} {bs : List KickClientStep} (h₀ : (roverSystem maxClients).Reachable s₀)
    (hu : (kickClientSystem id s₀ ms).Reachable u)
    (hrun : (kickClientSystem id s₀ ms).run u bs = some t) (hend : t.pc = .mounts []) (m : ℕ)
    (c : Client) (hon : u.server.On m c) :
    u.Outcome (kickClientSystem id s₀ ms) maxClients id bs t m c := by
  refine ⟨fun hm hid => kickClient_off h₀ hu hrun hend hon hm hid, fun hoff => ?_⟩
  obtain ⟨as, a, cs, v, v', rfl, has, hstep, hcs, hon', hoff'⟩ :=
    System.exists_step_ending (P := fun t => t.server.On m c) hrun hon hoff
  have hreach := kickClientSystem_server h₀ (hu.run has)
  rcases KickClientState.ends_on (roverSystem_known hreach) hstep hon' hoff' with
    ⟨b, rfl, htakes⟩ | ⟨hm, hid, hcaught⟩
  · exact .inl ⟨as, b, cs, v, rfl, has, htakes⟩
  · have hcaught : t.Caught c := System.run_keeps (S := kickClientSystem id s₀ ms)
      (I := fun t => t.Caught c) (fun _ _ _ h hstep => h.step hstep) hcaught hcs
    have hclosed : t.server.Closed c := by
      rcases hcaught with hclosed | ⟨j, todo, hpc, -⟩
      · exact hclosed
      · rw [hend] at hpc
        cases hpc
    exact .inr ⟨(todo_run has).subset hm, hid, hclosed, fun as s hrun' => hclosed.silent hrun'⟩

/-- Two rovers join mountpoint `M`. -/
def joinTwo : List RoverStep :=
  joinM ++ [.connect 0 (ascii "b") 7] ++ List.replicate 6 (.handler 1 .stored .ok)

/-- The first is kicked in the middle of a broadcast. -/
def kickFirst : List KickClientStep :=
  [.server (.broadcast 0 ⟨[1, 2]⟩), .lock .stored, .server (.teardown 1),
    .server (.deliver 0 .writeChan), .server (.closeConn 0), .server (.teardown 1), .next,
    .server (.deliver 0 .writeChan), .server (.deliver 0 .writeChan)]

theorem kickClient_final_first :
    ∃ s₀ t c d, (roverSystem 8).run (oneMount 8) joinTwo = some s₀ ∧
      (kickClientSystem (ascii "a") s₀ [0]).run ⟨s₀, .mounts [0]⟩ kickFirst = some t ∧
      (s₀.mounts.map fun mt => mt.point.snapshot) = [[d, c]] ∧
      (t.server.mounts.map fun mt => mt.point.snapshot) = [[d]] ∧
      t.server.sessions.map Session.packets = [[], [⟨[1, 2]⟩]] ∧
      KickClientState.Outcome (kickClientSystem (ascii "a") s₀ [0]) 8 (ascii "a")
        ⟨s₀, .mounts [0]⟩ kickFirst t 0 c := by
  obtain ⟨s₀, t, c, d, hs, ht, hc, hd, hpackets, hend, hon⟩ :
      ∃ s₀ t c d, (roverSystem 8).run (oneMount 8) joinTwo = some s₀ ∧
        (kickClientSystem (ascii "a") s₀ [0]).run ⟨s₀, .mounts [0]⟩ kickFirst = some t ∧
        (s₀.mounts.map fun mt => mt.point.snapshot) = [[d, c]] ∧
        (t.server.mounts.map fun mt => mt.point.snapshot) = [[d]] ∧
        t.server.sessions.map Session.packets = [[], [⟨[1, 2]⟩]] ∧ t.pc = .mounts [] ∧
        s₀.On 0 c :=
    ⟨_, _, _, _, rfl, rfl, rfl, rfl, rfl, rfl, _, rfl, List.mem_cons_of_mem _ List.mem_cons_self⟩
  exact ⟨s₀, t, c, d, hs, ht, hc, hd, hpackets,
    kickClient_final (.of_run _ (oneMount_init 8) hs) (.init rfl) ht hend 0 c hon⟩

end NtripCaster
