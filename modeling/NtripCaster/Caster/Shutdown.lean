import NtripCaster.Caster.Protocol
import NtripCaster.Source.Slot

/-!
# The shutdown of the server

`Server.Shutdown` closes the listener, disconnects every mountpoint and waits for the goroutines of
the `WaitGroup`. Handlers are not among them: one is counted from the end of its handshake on, by
the read loop or write loop that it starts. A handler that is still in its handshake when the sweep
and the wait go by registers its session afterwards.

## Main definitions

* `ConnPC`, `ShutdownPC`: where a handler and the call of `Shutdown` stand
* `ServerState`, `ServerStep`, `ServerState.step`, `serverSystem`
* `CasterState.Quiet`: nothing is registered and no loop runs
* `Drained`: the condition on a step

## Main results

* `ServerState.step_caster`: what a step of the server does to sessions and mountpoints
* `shutdown_complete`: after a clean shutdown all is quiet, under the condition
* `shutdown_not_complete`: a source that registers after the shutdown
-/

namespace NtripCaster

open Transition CasterState

/-- The handler of an accepted connection until it has found its mountpoint: it parses the request,
answers or authenticates it, and is `done` when the connection has been closed or handed over to a
session. -/
inductive ConnPC
  | parse
  | request (t : RequestType)
  | done
  deriving DecidableEq, Repr

/-- The next step of `Shutdown`: `done` is closed, the listener is closed, the mountpoints are
listed, `DisconnectAll` is called on one after the other, and the call waits. It has `exited` the
wait when the counter of the `WaitGroup` has been seen at zero. -/
inductive ShutdownPC
  | notCalled
  | closeListener
  | list
  | sweep (todo : List ℕ)
  | disconnect (call : ℕ) (todo : List ℕ)
  | wait
  | exited
  | returned
  | timedOut
  deriving DecidableEq, Repr

/-- The caster, the connections it has accepted, and its `Shutdown`. -/
structure ServerState where
  caster : CasterState
  conns : List ConnPC
  listening : Bool
  shutdown : ShutdownPC

/-- A step. `authenticate` brings the mountpoint, the ID and the user of a connection that passes;
`shutdown` the mountpoints that the manager lists. -/
inductive ServerStep
  | accept
  | parse (i : ℕ) (t : Option RequestType)
  | authenticate (i : ℕ) (user : Option (ℕ × Bytes × ℤ))
  | caster (a : CasterStep)
  | shutdown (mounts : List ℕ)
  | waitGroup
  | timeout

/-- The goroutine of the write loop has been started and has not ended. -/
def RoverPC.inWriteLoop : RoverPC → Bool
  | select | write _ | kick | removeClient | release => true
  | _ => false

/-- The counter of the `WaitGroup`: the read loops and write loops. -/
def CasterState.goroutines (s : CasterState) : ℕ :=
  s.rovers.sessions.countP (fun x => x.pc.inWriteLoop) + s.sources.countP fun x => x.pc.running

/-- A connection is handed over to a session. -/
def CasterStep.isConnect : CasterStep → Bool
  | .connect .. | .rover (.connect ..) => true
  | _ => false

namespace ServerState

variable (s : ServerState)

/-- The rest of a handler up to the lookup of the mountpoint. -/
def handOver : RequestType → Option (ℕ × Bytes × ℤ) → Option CasterState
  | .rover, some (mount, id, userID) => s.caster.step (.rover (.connect mount id userID))
  | .sourceRev1, some (mount, id, userID) | .sourceRev2, some (mount, id, userID) =>
    s.caster.step (.connect mount id userID)
  -- refused, or answered with the source table
  | _, _ => some s.caster

/-- The next step of `Shutdown` outside the wait. -/
def shutdownStep (mounts : List ℕ) : Option ServerState :=
  match s.shutdown with
  | .notCalled => some { s with shutdown := .closeListener }
  | .closeListener => some { s with listening := false, shutdown := .list }
  | .list => some { s with shutdown := .sweep mounts }
  | .sweep [] => some { s with shutdown := .wait }
  | .sweep (m :: todo) =>
    (s.caster.step (.disconnectAll m)).map fun caster =>
      { s with caster := caster, shutdown := .disconnect s.caster.calls.length todo }
  | .disconnect j todo =>
    (s.caster.calls[j]?).bind fun c =>
      if c.pc = .returned then some { s with shutdown := .sweep todo } else none
  | .exited => some { s with shutdown := .returned }
  | .wait | .returned | .timedOut => none

/-- The listener, a connection on its way to a session, a session, or `Shutdown` moves on. -/
def step : ServerStep → Option ServerState
  | .accept => if s.listening then some { s with conns := s.conns ++ [.parse] } else none
  | .parse i t =>
    if s.conns[i]? = some .parse then
      some { s with conns := s.conns.set i (t.elim .done .request) }
    else none
  | .authenticate i user =>
    match s.conns[i]? with
    | some (.request t) =>
      (s.handOver t user).map fun caster =>
        { s with caster := caster, conns := s.conns.set i .done }
    | _ => none
  | .caster a =>
    if a.isConnect then none else (s.caster.step a).map fun caster => { s with caster := caster }
  | .shutdown mounts => s.shutdownStep mounts
  | .waitGroup =>
    if s.shutdown = .wait ∧ s.caster.goroutines = 0 then some { s with shutdown := .exited }
    else none
  | .timeout =>
    -- the context is done
    if s.shutdown = .wait ∨ s.shutdown = .exited then some { s with shutdown := .timedOut }
    else none

/-- `Wait` has seen no goroutine. -/
def exited : Bool := s.shutdown = .exited || s.shutdown = .returned

end ServerState

/-- The server from `ListenAndServe` on. -/
def serverSystem (maxClients : ℤ) : System ServerState ServerStep where
  init s := ∃ caster, (casterSystem maxClients).init caster ∧ s = ⟨caster, [], true, .notCalled⟩
  step := ServerState.step

/-- The step is an `AddClient` or a `SetSource` that succeeds. -/
def CasterState.registers (s : CasterState) : CasterStep → Bool
  | .rover a => (s.rovers.joining a).isSome
  | .source k _ => (s.sources[k]?).any fun x =>
    x.pc = .setSource && (s.rovers.slot x.mount).isNone
  | _ => false

/-- The condition on a step: when `Wait` sees no goroutine, no handler is between the registration
of its session and the start of its goroutine, and none registers a session from then on. -/
def Drained (s : ServerState) : ServerStep → Prop
  | .waitGroup => (∀ x ∈ s.caster.rovers.sessions, x.pc ≠ .add ∧ x.pc ≠ .respond) ∧
    ∀ x ∈ s.caster.sources, x.pc ≠ .respond
  | .caster a => s.exited = true → s.caster.registers a = false
  | _ => True

instance (s : ServerState) (a : ServerStep) : Decidable (Drained s a) :=
  match a with
  | .waitGroup => inferInstanceAs (Decidable
      ((∀ x ∈ s.caster.rovers.sessions, x.pc ≠ .add ∧ x.pc ≠ .respond) ∧
        ∀ x ∈ s.caster.sources, x.pc ≠ .respond))
  | .caster a => inferInstanceAs (Decidable (s.exited = true → s.caster.registers a = false))
  | .accept | .parse .. | .authenticate .. | .shutdown _ | .timeout => .isTrue trivial

/-- Nothing is registered, and no read loop or write loop runs. -/
structure CasterState.Quiet (s : CasterState) : Prop where
  source : ∀ m, s.rovers.slot m = none
  client : ∀ m d, ¬ s.rovers.IsClient m d
  readLoop : ∀ x ∈ s.sources, x.pc.running = false
  writeLoop : ∀ x ∈ s.rovers.sessions, x.pc.inWriteLoop = false

/-! ## Steps of the server -/

namespace ServerState

variable {s s' : ServerState} {a : ServerStep}

/-- A step leaves sessions and mountpoints alone, or takes one step of theirs, which registers
nothing unless it is a step of their own. -/
theorem step_caster (h : s.step a = some s') : s'.caster = s.caster ∨
    ∃ b, s.caster.step b = some s'.caster ∧ (a = .caster b ∨ s.caster.registers b = false) := by
  cases a with
  | accept =>
    obtain ⟨-, h⟩ := Option.ite_none_right_eq_some.mp h
    exact .inl (Option.some.inj h ▸ rfl)
  | parse i t =>
    obtain ⟨-, h⟩ := Option.ite_none_right_eq_some.mp h
    exact .inl (Option.some.inj h ▸ rfl)
  | authenticate i user =>
    simp only [step] at h
    split at h
    next t _ =>
      obtain ⟨c, hc, rfl⟩ := Option.map_eq_some_iff.mp h
      unfold handOver at hc
      split at hc
      · exact .inr ⟨_, hc, .inr rfl⟩
      · exact .inr ⟨_, hc, .inr rfl⟩
      · exact .inr ⟨_, hc, .inr rfl⟩
      · exact .inl (Option.some.inj hc).symm
    next => cases h
  | caster b =>
    simp only [step] at h
    split at h
    · cases h
    · obtain ⟨c, hc, rfl⟩ := Option.map_eq_some_iff.mp h
      exact .inr ⟨b, hc, .inl rfl⟩
  | shutdown mounts =>
    simp only [step, shutdownStep] at h
    split at h
    · exact .inl (Option.some.inj h ▸ rfl)
    · exact .inl (Option.some.inj h ▸ rfl)
    · exact .inl (Option.some.inj h ▸ rfl)
    · exact .inl (Option.some.inj h ▸ rfl)
    · obtain ⟨c, hc, rfl⟩ := Option.map_eq_some_iff.mp h
      exact .inr ⟨_, hc, .inr rfl⟩
    · obtain ⟨c, -, h⟩ := Option.bind_eq_some_iff.mp h
      obtain ⟨-, h⟩ := Option.ite_none_right_eq_some.mp h
      exact .inl (Option.some.inj h ▸ rfl)
    · exact .inl (Option.some.inj h ▸ rfl)
    · cases h
    · cases h
    · cases h
  | waitGroup =>
    obtain ⟨-, h⟩ := Option.ite_none_right_eq_some.mp h
    exact .inl (Option.some.inj h ▸ rfl)
  | timeout =>
    obtain ⟨-, h⟩ := Option.ite_none_right_eq_some.mp h
    exact .inl (Option.some.inj h ▸ rfl)

/-- `Shutdown` returns nil only after the wait. -/
theorem exited_shutdownStep {mounts : List ℕ} (h : s.shutdownStep mounts = some s')
    (hexited : s'.exited = true) : s.exited = true := by
  unfold shutdownStep at h
  split at h
  · obtain rfl := Option.some.inj h
    cases hexited
  · obtain rfl := Option.some.inj h
    cases hexited
  · obtain rfl := Option.some.inj h
    cases hexited
  · obtain rfl := Option.some.inj h
    cases hexited
  · obtain ⟨c, -, rfl⟩ := Option.map_eq_some_iff.mp h
    cases hexited
  · obtain ⟨c, -, h⟩ := Option.bind_eq_some_iff.mp h
    obtain ⟨-, h⟩ := Option.ite_none_right_eq_some.mp h
    obtain rfl := Option.some.inj h
    cases hexited
  next hpc =>
    rw [exited, hpc]
    rfl
  · cases h
  · cases h
  · cases h

/-- `Wait` sees no goroutine in one step only. -/
theorem exited_step (h : s.step a = some s') (hexited : s'.exited = true) :
    s.exited = true ∨ a = .waitGroup ∧ s'.caster = s.caster ∧ s.caster.goroutines = 0 := by
  cases a with
  | accept =>
    obtain ⟨-, h⟩ := Option.ite_none_right_eq_some.mp h
    obtain rfl := Option.some.inj h
    exact .inl hexited
  | parse i t =>
    obtain ⟨-, h⟩ := Option.ite_none_right_eq_some.mp h
    obtain rfl := Option.some.inj h
    exact .inl hexited
  | authenticate i user =>
    simp only [step] at h
    split at h
    · obtain ⟨c, -, rfl⟩ := Option.map_eq_some_iff.mp h
      exact .inl hexited
    · cases h
  | caster b =>
    simp only [step] at h
    split at h
    · cases h
    · obtain ⟨c, -, rfl⟩ := Option.map_eq_some_iff.mp h
      exact .inl hexited
  | shutdown mounts => exact .inl (exited_shutdownStep h hexited)
  | waitGroup =>
    obtain ⟨⟨-, hzero⟩, h⟩ := Option.ite_none_right_eq_some.mp h
    obtain rfl := Option.some.inj h
    exact .inr ⟨rfl, rfl, hzero⟩
  | timeout =>
    obtain ⟨-, h⟩ := Option.ite_none_right_eq_some.mp h
    obtain rfl := Option.some.inj h
    cases hexited

end ServerState

theorem serverSystem_caster {maxClients : ℤ} {s : ServerState}
    (h : (serverSystem maxClients).Reachable s) : (casterSystem maxClients).Reachable s.caster := by
  refine h.map ServerState.caster ?_ fun s a s' hstep => ?_
  · rintro s ⟨caster, hinit, rfl⟩
    exact hinit
  · exact (ServerState.step_caster hstep).imp_right fun ⟨b, hb, _⟩ => ⟨b, hb⟩

/-! ## Sessions at rest -/

/-- `SetSource` has accepted the source, and its read loop has not ended. -/
def ReadLoopPC.active : ReadLoopPC → Bool
  | isEnabled | setSource | finished | rejected => false
  | _ => true

/-- `AddClient` has accepted the client, and its write loop has not ended. -/
def Session.active (x : Session) : Bool := x.pc.registered || x.pc.counted

theorem ReadLoopPC.of_not_active {pc : ReadLoopPC} (h : pc.active = false) :
    pc.looping = false ∧ pc.running = false := by
  cases pc <;> first | exact ⟨rfl, rfl⟩ | cases h

theorem RoverPC.inWriteLoop_of_not_active {pc : RoverPC}
    (h : (pc.registered || pc.counted) = false) : pc.inWriteLoop = false := by
  cases pc <;> first | rfl | cases h

/-- No session is registered and not ended. -/
structure CasterState.AtRest (s : CasterState) : Prop where
  sessions : ∀ x ∈ s.rovers.sessions, x.active = false
  sources : ∀ x ∈ s.sources, x.pc.active = false

/-- Without a registration, no rover session starts its way. -/
theorem RoverState.atRest_effect {r r' : RoverState} {a : RoverStep} (he : RoverEffect r a r')
    (h : ∀ x ∈ r.sessions, x.active = false) (hj : r.joining a = none) :
    ∀ x ∈ r'.sessions, x.active = false := by
  -- the session that moves is not on its way
  have hpast : ∀ {i : ℕ} {x : Session}, r.sessions[i]? = some x → x.active ≠ true := by
    intro i x hx hactive
    rw [h x (List.mem_of_getElem? hx)] at hactive
    cases hactive
  cases he with
  | connect mount id userID => exact forall_mem_snoc h rfl
  | moves hx hmove =>
    refine forall_mem_set h ?_
    rw [Session.active, hmove.registered, hmove.counted]
    exact h _ (List.mem_of_getElem? hx)
  | teardowns t => exact h
  | addClient ha hx hmt hpc hc hadd =>
    obtain ⟨x, hx', -⟩ := Joins.joining ⟨_, _, _, _, _, _, ha, hx, hpc, rfl, hmt, hc, hadd⟩
    rw [hj] at hx'
    cases hx'
  | add hx hpc => exact absurd (by rw [Session.active, hpc]; rfl) (hpast hx)
  | removeClient ord hx hmt hpc => exact absurd (by rw [Session.active, hpc]; rfl) (hpast hx)
  | release hx hpc => exact absurd (by rw [Session.active, hpc]; rfl) (hpast hx)
  | operate t hmt hop => exact h
  | broadcast pkt hmt hpc => exact h
  | finish hmt hpc => exact h
  | enter hmt hpc hx hdone => exact h
  | skip hmt hpc hx hdone => exact h
  | accept hmt hpc hx hacc =>
    refine forall_mem_set h ?_
    rw [Session.active, hacc.registered, hacc.counted]
    exact h _ (List.mem_of_getElem? hx)
  | refuse hmt hpc => exact h
  | slowClients n hmt hpc => exact h
  | kickCount hmt hpc => exact h
  | @markSlow m mt pkt c todo x hmt hpc hx hslow =>
    have hactive : x.active = false := h x (List.mem_of_getElem? hx)
    exact forall_mem_set h hactive

namespace CasterState

variable {s s' : CasterState} {a : CasterStep}

/-- A `Broadcast` call starts no rover session. -/
theorem atRest_moveBroadcast {x : SourceSession} {b : RoverStep} {r : RoverState} {pc : BroadcastPC}
    (h : ∀ x ∈ s.rovers.sessions, x.active = false) (hb : ∀ r : RoverState, r.joining b = none)
    (hmove : s.moveBroadcast x b = some (r, pc)) : ∀ x ∈ r.sessions, x.active = false := by
  obtain ⟨mt, r', mt', -, hstep, -, rfl, -⟩ := moveBroadcast_eq_some hmove
  have he := RoverState.step_effect hstep
  have hrest : ∀ x ∈ r'.sessions, x.active = false := RoverState.atRest_effect he h (hb _)
  exact hrest

/-- A base station that is not on its way goes nowhere. -/
theorem atRest_moves {calls : List RemovalCall} {x x' : SourceSession} (h : x.Moves calls x')
    (hx : x.pc.active = false) : x'.pc.active = false := by
  cases h with
  | @check pc hpc hpc' => cases pc <;> first | rfl | cases hpc'
  | loop hpc hpc' =>
    rcases hpc with hpc | hpc | hpc <;> (rw [hpc] at hx; cases hx)
  | next hpc hidle =>
    rw [hpc] at hx
    cases hx
  | close hpc hc hreturned =>
    rw [hpc] at hx
    cases hx
  | finish hpc hclosed => rfl
  | closing hclose => exact hx

/-- At rest, sessions stay at rest until one is registered. -/
theorem AtRest.step (h : s.AtRest) (he : CasterEffect s a s') (ha : s.registers a = false) :
    s'.AtRest := by
  have hpast : ∀ {k : ℕ} {x : SourceSession}, s.sources[k]? = some x → x.pc.active ≠ true := by
    intro k x hx hactive
    rw [h.sources x (List.mem_of_getElem? hx)] at hactive
    cases hactive
  cases he with
  | @rover b r hab hb hr =>
    rw [hab] at ha
    have hjoining := Option.not_isSome_iff_eq_none.mp (Bool.eq_false_iff.mp ha)
    exact ⟨RoverState.atRest_effect (RoverState.step_effect hr) h.sessions hjoining, h.sources⟩
  | connect mount id userID hid => exact ⟨h.sessions, forall_mem_snoc h.sources rfl⟩
  | moves hx hm =>
    refine ⟨h.sessions, forall_mem_set h.sources ?_⟩
    exact atRest_moves hm (h.sources _ (List.mem_of_getElem? hx))
  | read hab hx hpc => exact absurd (by rw [hpc]; rfl) (hpast hx)
  | @took k x mt hab hx hmt hpc hfree =>
    obtain ⟨read, rfl⟩ := hab
    have hslot := (RoverState.slot_of_getElem? hmt).trans hfree
    simp [registers, hx, hpc, hslot] at ha
  | leave hx hpc =>
    refine absurd ?_ (hpast hx)
    rcases hpc with hpc | hpc <;> rw [hpc] <;> rfl
  | broadcast hx hpc hb => exact absurd (by rw [hpc]; rfl) (hpast hx)
  | @deliver k x case r pc hx hb =>
    have hactive : x.pc.active = false := h.sources x (List.mem_of_getElem? hx)
    exact ⟨atRest_moveBroadcast h.sessions (fun _ => rfl) hb, forall_mem_set h.sources hactive⟩
  | request hremoved hpc => exact ⟨h.sessions, h.sources⟩
  | sourceID srcID hc hpc => exact ⟨h.sessions, h.sources⟩
  | enter ord ord' hab hc hmt hpc => exact ⟨h.sessions, h.sources⟩
  | kick hc hpc hclosed => exact ⟨h.sessions, h.sources⟩
  | returned hc hpc hi => exact ⟨h.sessions, h.sources⟩

/-- At rest, all is quiet. -/
theorem AtRest.quiet (h : s.AtRest) (hinv : s.SlotInv)
    (hknown : Known s.rovers.mounts s.rovers.sessions) : s.Quiet where
  source m := by
    cases hslot : s.rovers.slot m with
    | none => rfl
    | some src =>
      -- whoever is in the slot has a read loop
      obtain ⟨x, hx, -, -, hlives⟩ := hinv.holder m src hslot
      have hactive := h.sources x (List.mem_of_getElem? hx)
      rcases hlives with hloop | ⟨j, c, hpc, -⟩
      · rw [(ReadLoopPC.of_not_active hactive).1] at hloop
        cases hloop
      · rw [hpc] at hactive
        cases hactive
  client m d hd := by
    obtain ⟨x, hx, -, -, hreg⟩ := hd.registered hknown
    have hactive := h.sessions x (List.mem_of_getElem? hx)
    rw [Session.active, hreg] at hactive
    cases hactive
  readLoop x hx := (ReadLoopPC.of_not_active (h.sources x hx)).2
  writeLoop x hx := RoverPC.inWriteLoop_of_not_active (h.sessions x hx)

/-- With no goroutine in the group and no handler on its way to one, all is at rest. -/
theorem atRest_of_goroutines (hzero : s.goroutines = 0)
    (hrovers : ∀ x ∈ s.rovers.sessions, x.pc ≠ .add ∧ x.pc ≠ .respond)
    (hsources : ∀ x ∈ s.sources, x.pc ≠ .respond) : s.AtRest := by
  obtain ⟨hwrite, hread⟩ := Nat.add_eq_zero_iff.mp hzero
  constructor
  · intro x hx
    have hloop := List.countP_eq_zero.mp hwrite x hx
    obtain ⟨hadd, hrespond⟩ := hrovers x hx
    unfold Session.active
    cases hpc : x.pc <;> first
      | rfl
      | exact absurd hpc hadd
      | exact absurd hpc hrespond
      | (rw [hpc] at hloop; exact absurd rfl hloop)
  · intro x hx
    have hloop := List.countP_eq_zero.mp hread x hx
    have hrespond := hsources x hx
    cases hpc : x.pc <;> first
      | rfl
      | exact absurd hpc hrespond
      | (rw [hpc] at hloop; exact absurd rfl hloop)

end CasterState

/-- In a run under the condition, all is at rest once `Wait` has seen no goroutine. -/
theorem atRest_of_exited {maxClients : ℤ} {s : ServerState}
    (h : ((serverSystem maxClients).restrict Drained).Reachable s) :
    s.exited = true → s.caster.AtRest := by
  refine System.Reachable.restrict_invariant (I := fun s => s.exited = true → s.caster.AtRest) ?_
    (fun s a s' hreach hs hguard hstep hexited => ?_) h
  · rintro s ⟨caster, -, rfl⟩ hexited
    cases hexited
  · rcases ServerState.exited_step hstep hexited with hold | ⟨rfl, hcaster, hzero⟩
    · rcases ServerState.step_caster hstep with hcaster | ⟨b, hb, hab⟩
      · rw [hcaster]
        exact hs hold
      · have hregisters : s.caster.registers b = false := by
          rcases hab with rfl | hregisters
          · exact hguard hold
          · exact hregisters
        exact (hs hold).step (step_effect hb) hregisters
    · rw [hcaster]
      exact atRest_of_goroutines hzero hguard.1 hguard.2

/-- **A clean shutdown is complete** in a run in which no handler is between a registration and the
start of its goroutine when `Wait` sees none, and none registers a session from then on: when
`Shutdown` has returned nil, nothing is registered and no loop runs. -/
theorem shutdown_complete {maxClients : ℤ} {s : ServerState}
    (h : ((serverSystem maxClients).restrict Drained).Reachable s)
    (hreturned : s.shutdown = .returned) : s.caster.Quiet := by
  have hcaster := serverSystem_caster h.of_restrict
  have hexited : s.exited = true := by simp [ServerState.exited, hreturned]
  exact (atRest_of_exited h hexited).quiet (casterSystem_slotInv hcaster)
    (casterSystem_known hcaster)

/-- A server with one mountpoint. -/
def oneMountServer : ServerState := ⟨⟨oneMount 8, [], [], []⟩, [], true, .notCalled⟩

theorem oneMountServer_init : (serverSystem 8).init oneMountServer :=
  ⟨_, ⟨_, fun _ hmt => ⟨_, _, _, _, _, _, List.mem_singleton.mp hmt⟩, rfl⟩, rfl⟩

/-- A base station has been accepted and authenticated. -/
def authenticated : List ServerStep :=
  [.accept, .parse 0 (some .sourceRev1), .authenticate 0 (some (0, ascii "a", 1))]

/-- It takes the slot, and its read loop starts. -/
def registeredSource : List ServerStep := List.replicate 3 (.caster (.source 0 none))

/-- The sweep over the mountpoint, with the steps of its `DisconnectAll`. -/
def sweep (disconnectAll : List ServerStep) : List ServerStep :=
  [.shutdown [], .shutdown [], .shutdown [0], .shutdown []] ++ disconnectAll ++
    [.shutdown [], .shutdown []]

/-- The steps of a removing call, with the end of `Stop` in their midst. -/
def callSteps (j : ℕ) (closing : List CasterStep) : List ServerStep :=
  (CasterStep.call j .stored .stored :: closing ++
    List.replicate 2 (CasterStep.call j .stored .stored)).map .caster

/-- The end of the read loop, with its own `ClearSource`. -/
def readLoopEnd : List ServerStep :=
  [.caster (.source 0 none)] ++ callSteps 1 [] ++ List.replicate 2 (.caster (.source 0 none))

/-- A base station is taken off by the sweep, its read loop ends, and the wait is over. -/
def cleanShutdown : List ServerStep :=
  authenticated ++ registeredSource ++
    sweep (callSteps 0 [.call 0 .stored .stored, .closeConn 0]) ++
      readLoopEnd ++ [.waitGroup, .shutdown []]

theorem shutdown_complete_clean : ∃ s,
    ((serverSystem 8).restrict Drained).run oneMountServer cleanShutdown = some s ∧
      s.shutdown = .returned ∧ s.caster.Quiet := by
  obtain ⟨s, hs, hreturned⟩ : ∃ s,
      ((serverSystem 8).restrict Drained).run oneMountServer cleanShutdown = some s ∧
        s.shutdown = .returned := ⟨_, rfl, rfl⟩
  have hreach : ((serverSystem 8).restrict Drained).Reachable s :=
    .of_run _ oneMountServer_init hs
  exact ⟨s, hs, hreturned, shutdown_complete hreach hreturned⟩

/-- The handler of the base station goes on after `Shutdown` has returned: its source is in the
slot, and its read loop runs. -/
theorem shutdown_not_complete : ¬ ∀ (maxClients : ℤ) (s : ServerState),
    (serverSystem maxClients).Reachable s → s.shutdown = .returned → s.caster.Quiet := by
  intro hall
  obtain ⟨s, hs, hreturned, src, hslot⟩ : ∃ s, (serverSystem 8).run oneMountServer
      (authenticated ++ sweep (callSteps 0 []) ++ [.waitGroup, .shutdown []] ++ registeredSource) =
        some s ∧ s.shutdown = .returned ∧ ∃ src, s.caster.rovers.slot 0 = some src :=
    ⟨_, rfl, rfl, _, rfl⟩
  have hnone := (hall 8 s (.of_run _ oneMountServer_init hs) hreturned).source 0
  rw [hslot] at hnone
  cases hnone

end NtripCaster
