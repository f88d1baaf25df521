import Mathlib.Algebra.Order.Ring.Nat
import NtripCaster.Library.Transition
import NtripCaster.Limiter.Limiter
import NtripCaster.Mountpoint.Representation
import NtripCaster.Rover.Session

/-!
# The rover side of the caster

All rover connections of a server with the mountpoints they register on, one step of one
goroutine at a time: handlers, write loops and read watchers (`Session`), `Broadcast` calls with
their loop over a snapshot, every other critical section of a mountpoint, and the kicks that
follow it after the unlock. Broadcasts on one mountpoint do not overlap.

## Main definitions

* `BroadcastPC`, `Mount`: a mountpoint with the `Broadcast` call in progress on it
* `RoverState`, `RoverStep`, `RoverState.step`, `roverSystem`
* `RoverEffect`: what a step can do

## Main results

* `RoverState.step_effect`: every step has one of the effects
-/

namespace NtripCaster

open Transition

/-- The `Broadcast` call in progress on a mountpoint: at the head of its loop, at the second
`select` for a client, in the `default` case at one of the two counters, at the swap of the slow
flag, or in `KickSlowConsumer`. -/
inductive BroadcastPC
  | idle
  | loop (pkt : RTCMPacket) (todo : List Client)
  | select (pkt : RTCMPacket) (c : Client) (todo : List Client)
  | slowClients (pkt : RTCMPacket) (c : Client) (todo : List Client)
  | kickCount (pkt : RTCMPacket) (c : Client) (todo : List Client)
  | markSlow (pkt : RTCMPacket) (c : Client) (todo : List Client)
  | kick (pkt : RTCMPacket) (c : Client) (todo : List Client)
  deriving DecidableEq, Repr

/-- The cases of the second `select` in `Broadcast`. -/
inductive SendCase
  | writeChan
  | done
  | default
  deriving DecidableEq, Repr

/-- A mountpoint, the `Broadcast` call in progress, and all calls so far: the packet and the
snapshot that was loaded. -/
structure Mount where
  point : MountPoint
  broadcast : BroadcastPC
  log : List (RTCMPacket × List Client)

/-- The rovers of a server. A client's `ref` is its index in `sessions`; `teardowns` are the
clients that operations which have left their critical section still have to kick. -/
structure RoverState where
  limiter : GlobalLimiter
  mounts : List Mount
  sessions : List Session
  teardowns : List (List Client)

/-- A step, with its choices. -/
inductive RoverStep
  | connect (mount : ℕ) (id : Bytes) (userID : ℤ)
  | handler (i : ℕ) (ord : RangeOrder Client) (r : WriteResult)
  | writeLoop (i : ℕ) (case : LoopCase) (ord : RangeOrder Client) (r : WriteResult)
  | watch (i : ℕ)
  | closeConn (i : ℕ)
  | operate (m : ℕ) (op : CriticalSection)
  | teardown (j : ℕ)
  | broadcast (m : ℕ) (pkt : RTCMPacket)
  | deliver (m : ℕ) (case : SendCase)

namespace RoverState

variable (s : RoverState)

/-- Session `i` moves on. -/
def setSession (i : ℕ) (x : Session) : RoverState := { s with sessions := s.sessions.set i x }

/-- Mountpoint `m` changes. -/
def setMount (m : ℕ) (mt : Mount) : RoverState := { s with mounts := s.mounts.set m mt }

/-! ## Handlers -/

/-- A handler refuses its connection. -/
def reject (i : ℕ) (x : Session) (response : String) (r : WriteResult) : Option RoverState :=
  (x.reject (ascii response) r).map (s.setSession i)

/-- `client.New` on a mountpoint; `make` of the channel panics with a capacity out of range. -/
def newClient (x : Session) (mp : MountPoint) : Option Client :=
  if FitsChan mp.writeQueue then
    some { x.client with queueSize := mp.writeQueue.toNat, writeTimeout := mp.writeTimeout }
  else none

/-- The next step of a `handleRover` call. -/
def handler (i : ℕ) (ord : RangeOrder Client) (r : WriteResult) : Option RoverState :=
  (s.sessions[i]?).bind fun x =>
    (s.mounts[x.mount]?).bind fun mt =>
      match x.pc with
      | .isEnabled =>
        if mt.point.enabled then some (s.setSession i { x with pc := .hasSource })
        else s.reject i x "HTTP/1.1 404 Not Found\r\n\r\n" r
      | .hasSource =>
        if mt.point.hasSource then some (s.setSession i { x with pc := .atCapacity })
        else s.reject i x "HTTP/1.1 503 Service Unavailable\r\n\r\n" r
      | .atCapacity =>
        if s.limiter.atCapacity then
          s.reject i x
            "HTTP/1.1 503 Service Unavailable\r\nContent-Type: text/plain\r\n\r\nServer at capacity"
            r
        else some (s.setSession i { x with pc := .addClient })
      | .addClient =>
        -- `client.New` reads the queue size and the timeout, `AddClient` checks its own limit
        (newClient x mt.point).bind fun c =>
          match mt.point.addClient ord c with
          | .ok mp =>
            some ((s.setMount x.mount { mt with point := mp }).setSession i
              { x with client := c, pc := .add })
          | .error .clientLimitReached =>
            s.reject i x "HTTP/1.1 503 Service Unavailable\r\nContent-Type: text/plain\r\n\r\nMountpoint at capacity" r
      | .add => some { s.setSession i { x with pc := .respond } with limiter := s.limiter.add }
      | .respond => (x.respond r).map (s.setSession i)
      | _ => none

/-! ## Sessions -/

/-- The next step of a write loop or of its deferred calls. -/
def writeLoop (i : ℕ) (case : LoopCase) (ord : RangeOrder Client) (r : WriteResult) :
    Option RoverState :=
  (s.sessions[i]?).bind fun x =>
    match x.pc with
    | .removeClient =>
      (s.mounts[x.mount]?).map fun mt =>
        (s.setMount x.mount { mt with point := mt.point.removeClient ord x.client.id }).setSession i
          { x with pc := .release }
    | .release =>
      some { s.setSession i { x with pc := .finished } with limiter := s.limiter.release }
    | _ => (x.writeLoop case r).map (s.setSession i)

/-- The next kick of an operation that has left its critical section: it starts, and is over once
the connection is closed. -/
def teardown (j : ℕ) : Option RoverState :=
  match s.teardowns[j]? with
  | some (c :: rest) =>
    (s.sessions[c.ref]?).map fun x =>
      if x.closeOnce = .connClosed then { s with teardowns := s.teardowns.set j rest }
      else s.setSession c.ref x.kick
  | _ => none

/-- A critical section other than `AddClient`, which handlers call. What is to be kicked is left
to a teardown; stopping the source ends its own session. -/
def operate (m : ℕ) (op : CriticalSection) : Option RoverState :=
  match op with
  | .addClient _ _ => none
  | op =>
    (s.mounts[m]?).map fun mt =>
      { s.setMount m { mt with point := mt.point.apply op } with
        teardowns := s.teardowns ++ [(mt.point.teardown op).kick] }

/-! ## Broadcasts -/

/-- `Broadcast` is called and loads the snapshot. -/
def startBroadcast (m : ℕ) (pkt : RTCMPacket) : Option RoverState :=
  (s.mounts[m]?).bind fun mt =>
    match mt.broadcast with
    | .idle =>
      some (s.setMount m { mt with
        broadcast := .loop pkt mt.point.snapshot
        log := mt.log ++ [(pkt, mt.point.snapshot)] })
    | _ => none

/-- The broadcast on `m` moves on. -/
def setBroadcast (m : ℕ) (mt : Mount) (pc : BroadcastPC) : RoverState :=
  s.setMount m { mt with broadcast := pc }

/-- The next step of the `Broadcast` call on a mountpoint. -/
def deliver (m : ℕ) (case : SendCase) : Option RoverState :=
  (s.mounts[m]?).bind fun mt =>
    match mt.broadcast with
    | .idle => none
    | .loop _ [] => some (s.setBroadcast m mt .idle)
    | .loop pkt (c :: todo) =>
      -- the first `select`: a client that is `Done` is passed over
      (s.sessions[c.ref]?).map fun x =>
        if x.isDone then s.setBroadcast m mt (.loop pkt todo)
        else s.setBroadcast m mt (.select pkt c todo)
    | .select pkt c todo =>
      (s.sessions[c.ref]?).bind fun x =>
        match case with
        | .writeChan =>
          (x.trySend (mt.log.length - 1) pkt).map fun x' =>
            (s.setBroadcast m mt (.loop pkt todo)).setSession c.ref x'
        | .done => if x.isDone then some (s.setBroadcast m mt (.loop pkt todo)) else none
        | .default =>
          if x.refuses then some (s.setBroadcast m mt (.slowClients pkt c todo)) else none
    | .slowClients pkt c todo =>
      let stats := { mt.point.stats with slowClients := mt.point.stats.slowClients + 1 }
      some (s.setMount m
        { mt with point := { mt.point with stats := stats }, broadcast := .kickCount pkt c todo })
    | .kickCount pkt c todo =>
      let stats := { mt.point.stats with kickCount := mt.point.stats.kickCount + 1 }
      some (s.setMount m
        { mt with point := { mt.point with stats := stats }, broadcast := .markSlow pkt c todo })
    | .markSlow pkt c todo =>
      -- `CompareAndSwapInt32`: only who sets the flag kicks
      (s.sessions[c.ref]?).map fun x =>
        if x.slow then s.setBroadcast m mt (.loop pkt todo)
        else (s.setBroadcast m mt (.kick pkt c todo)).setSession c.ref { x with slow := true }
    | .kick pkt c todo =>
      -- `CloseOnce.Do` returns when the connection is closed, whoever closes it
      (s.sessions[c.ref]?).map fun x =>
        if x.closeOnce = .connClosed then s.setBroadcast m mt (.loop pkt todo)
        else s.setSession c.ref x.kick

/-- A goroutine makes its next step, or a call on a mountpoint starts. -/
def step : RoverStep → Option RoverState
  | .connect mount id userID =>
    some { s with sessions := s.sessions ++ [newSession s.sessions.length mount id userID] }
  | .handler i ord r => s.handler i ord r
  | .writeLoop i case ord r => s.writeLoop i case ord r
  | .watch i => (s.sessions[i]?).bind fun x => x.watch.map (s.setSession i)
  | .closeConn i => (s.sessions[i]?).bind fun x => x.closeConn.map (s.setSession i)
  | .operate m op => s.operate m op
  | .teardown j => s.teardown j
  | .broadcast m pkt => s.startBroadcast m pkt
  | .deliver m case => s.deliver m case

/-- The rovers registered over all mountpoints. -/
def registered : ℕ := (s.mounts.map fun mt => mt.point.clientsByID.len).sum

end RoverState

/-- A mountpoint as `NewMountPoint` leaves it. -/
def Mount.Fresh (mt : Mount) : Prop :=
  ∃ name description format writeQueue writeTimeout maxClients,
    mt = ⟨newMountPoint name description format writeQueue writeTimeout maxClients, .idle, []⟩

/-- The rovers of a server from `NewServer` on. The mountpoints are all those that are ever
created: one that is not created yet has no sessions. -/
def roverSystem (maxClients : ℤ) : System RoverState RoverStep where
  init s := ∃ mounts : List Mount, (∀ mt ∈ mounts, mt.Fresh) ∧
    s = ⟨newGlobalLimiter maxClients, mounts, [], []⟩
  step := RoverState.step

/-- A server with one mountpoint. -/
def oneMount (maxClients : ℤ) : RoverState :=
  ⟨newGlobalLimiter maxClients,
    [⟨newMountPoint (ascii "M") [] (ascii "RTCM3") 64 3000000000 0, .idle, []⟩], [], []⟩

theorem oneMount_init (maxClients : ℤ) : (roverSystem maxClients).init (oneMount maxClients) :=
  ⟨_, fun _ hmt => ⟨_, _, _, _, _, _, List.mem_singleton.mp hmt⟩, rfl⟩

/-! ## What a step can do -/

open RoverState

/-- The effects of a step. Only a handler calls `AddClient`. -/
inductive RoverEffect (s : RoverState) (a : RoverStep) : RoverState → Prop
  | connect (mount : ℕ) (id : Bytes) (userID : ℤ) :
    RoverEffect s a
      { s with sessions := s.sessions ++ [newSession s.sessions.length mount id userID] }
  | moves {i : ℕ} {x x' : Session} (hx : s.sessions[i]? = some x) (h : x.Moves x') :
    RoverEffect s a (s.setSession i x')
  | teardowns (t : List (List Client)) : RoverEffect s a { s with teardowns := t }
  | addClient {i : ℕ} {x : Session} {mt : Mount} {ord : RangeOrder Client} {r : WriteResult}
      {c : Client} {mp : MountPoint} (ha : a = .handler i ord r)
      (hx : s.sessions[i]? = some x) (hmt : s.mounts[x.mount]? = some mt)
      (hpc : x.pc = .addClient) (hc : newClient x mt.point = some c)
      (hadd : mt.point.addClient ord c = .ok mp) :
    RoverEffect s a ((s.setMount x.mount { mt with point := mp }).setSession i
      { x with client := c, pc := .add })
  | add {i : ℕ} {x : Session} (hx : s.sessions[i]? = some x) (hpc : x.pc = .add) :
    RoverEffect s a { s.setSession i { x with pc := .respond } with limiter := s.limiter.add }
  | removeClient {i : ℕ} {x : Session} {mt : Mount} (ord : RangeOrder Client)
      (hx : s.sessions[i]? = some x) (hmt : s.mounts[x.mount]? = some mt)
      (hpc : x.pc = .removeClient) :
    RoverEffect s a ((s.setMount x.mount
      { mt with point := mt.point.removeClient ord x.client.id }).setSession i
        { x with pc := .release })
  | release {i : ℕ} {x : Session} (hx : s.sessions[i]? = some x) (hpc : x.pc = .release) :
    RoverEffect s a { s.setSession i { x with pc := .finished } with limiter := s.limiter.release }
  | operate {m : ℕ} {mt : Mount} {op : CriticalSection} (t : List (List Client))
      (hmt : s.mounts[m]? = some mt) (hop : ∀ ord c, op ≠ .addClient ord c) :
    RoverEffect s a { s.setMount m { mt with point := mt.point.apply op } with teardowns := t }
  | broadcast {m : ℕ} {mt : Mount} (pkt : RTCMPacket) (hmt : s.mounts[m]? = some mt)
      (hpc : mt.broadcast = .idle) :
    RoverEffect s a (s.setMount m { mt with
      broadcast := .loop pkt mt.point.snapshot
      log := mt.log ++ [(pkt, mt.point.snapshot)] })
  | finish {m : ℕ} {mt : Mount} {pkt : RTCMPacket} (hmt : s.mounts[m]? = some mt)
      (hpc : mt.broadcast = .loop pkt []) : RoverEffect s a (s.setBroadcast m mt .idle)
  | enter {m : ℕ} {mt : Mount} {pkt : RTCMPacket} {c : Client} {todo : List Client} {x : Session}
      (hmt : s.mounts[m]? = some mt) (hpc : mt.broadcast = .loop pkt (c :: todo))
      (hx : s.sessions[c.ref]? = some x) (hdone : x.isDone = false) :
    RoverEffect s a (s.setBroadcast m mt (.select pkt c todo))
  | skip {m : ℕ} {mt : Mount} {pkt : RTCMPacket} {c : Client} {todo : List Client} {x : Session}
      (hmt : s.mounts[m]? = some mt)
      (hpc : mt.broadcast = .loop pkt (c :: todo) ∨ mt.broadcast = .select pkt c todo ∨
        mt.broadcast = .kick pkt c todo ∨ mt.broadcast = .markSlow pkt c todo ∧ x.slow = true)
      (hx : s.sessions[c.ref]? = some x)
      (hdone : mt.broadcast = .markSlow pkt c todo ∨ x.isDone = true) :
    RoverEffect s a (s.setBroadcast m mt (.loop pkt todo))
  | accept {m : ℕ} {mt : Mount} {pkt : RTCMPacket} {c : Client} {todo : List Client}
      {x x' : Session} (hmt : s.mounts[m]? = some mt) (hpc : mt.broadcast = .select pkt c todo)
      (hx : s.sessions[c.ref]? = some x) (h : Session.Accepts (mt.log.length - 1) pkt x x') :
    RoverEffect s a ((s.setBroadcast m mt (.loop pkt todo)).setSession c.ref x')
  | refuse {m : ℕ} {mt : Mount} {pkt : RTCMPacket} {c : Client} {todo : List Client}
      (hmt : s.mounts[m]? = some mt) (hpc : mt.broadcast = .select pkt c todo) :
    RoverEffect s a (s.setBroadcast m mt (.slowClients pkt c todo))
  | slowClients {m : ℕ} {mt : Mount} {pkt : RTCMPacket} {c : Client} {todo : List Client} (n : ℤ)
      (hmt : s.mounts[m]? = some mt) (hpc : mt.broadcast = .slowClients pkt c todo) :
    RoverEffect s a (s.setMount m { mt with
      point := { mt.point with stats := { mt.point.stats with slowClients := n } }
      broadcast := .kickCount pkt c todo })
  | kickCount {m : ℕ} {mt : Mount} {pkt : RTCMPacket} {c : Client} {todo : List Client}
      (hmt : s.mounts[m]? = some mt) (hpc : mt.broadcast = .kickCount pkt c todo) :
    RoverEffect s a (s.setMount m { mt with
      point := { mt.point with
        stats := { mt.point.stats with kickCount := mt.point.stats.kickCount + 1 } }
      broadcast := .markSlow pkt c todo })
  | markSlow {m : ℕ} {mt : Mount} {pkt : RTCMPacket} {c : Client} {todo : List Client}
      {x : Session} (hmt : s.mounts[m]? = some mt) (hpc : mt.broadcast = .markSlow pkt c todo)
      (hx : s.sessions[c.ref]? = some x) (hslow : x.slow = false) :
    RoverEffect s a ((s.setBroadcast m mt (.kick pkt c todo)).setSession c.ref
      { x with slow := true })

namespace RoverState

variable {s s' : RoverState} {a : RoverStep}

theorem reject_effect {i : ℕ} {x : Session} (hx : s.sessions[i]? = some x)
    (hpc : x.pc.admitted = false) {response : String} {r : WriteResult}
    (h : s.reject i x response r = some s') : RoverEffect s a s' := by
  obtain ⟨x', hx', rfl⟩ := Option.map_eq_some_iff.mp h
  exact .moves hx (Session.moves_reject hpc hx')

/-- The handler of a rover, from its checks to the deferred `Release`. -/
theorem handler_effect {i : ℕ} {ord : RangeOrder Client} {r : WriteResult}
    (h : s.handler i ord r = some s') : RoverEffect s (.handler i ord r) s' := by
  obtain ⟨x, hx, h⟩ := Option.bind_eq_some_iff.mp h
  obtain ⟨mt, hmt, h⟩ := Option.bind_eq_some_iff.mp h
  have hcheck : ∀ pc : RoverPC, x.pc.admitted = false → x.pc.unwritten = true →
      pc.admitted = false →
        RoverEffect s (.handler i ord r) (s.setSession i { x with pc := pc }) :=
    fun pc h₁ h₂ h₃ => .moves hx (Session.moves_check h₁ h₂ h₃)
  split at h
  next hpc =>
    split at h
    · exact Option.some.inj h ▸ hcheck _ (by rw [hpc]; rfl) (by rw [hpc]; rfl) rfl
    · exact reject_effect hx (by rw [hpc]; rfl) h
  next hpc =>
    split at h
    · exact Option.some.inj h ▸ hcheck _ (by rw [hpc]; rfl) (by rw [hpc]; rfl) rfl
    · exact reject_effect hx (by rw [hpc]; rfl) h
  next hpc =>
    split at h
    · exact reject_effect hx (by rw [hpc]; rfl) h
    · exact Option.some.inj h ▸ hcheck _ (by rw [hpc]; rfl) (by rw [hpc]; rfl) rfl
  next hpc =>
    obtain ⟨c, hc, h⟩ := Option.bind_eq_some_iff.mp h
    split at h
    next mp hadd => exact Option.some.inj h ▸ .addClient rfl hx hmt hpc hc hadd
    next => exact reject_effect hx (by rw [hpc]; rfl) h
  next hpc => exact Option.some.inj h ▸ .add hx hpc
  next hpc =>
    obtain ⟨x', hx', rfl⟩ := Option.map_eq_some_iff.mp h
    exact .moves hx (Session.moves_respond hpc hx')
  next => cases h

theorem writeLoop_effect {i : ℕ} {case : LoopCase} {ord : RangeOrder Client} {r : WriteResult}
    (h : s.writeLoop i case ord r = some s') : RoverEffect s a s' := by
  obtain ⟨x, hx, h⟩ := Option.bind_eq_some_iff.mp h
  split at h
  next hpc =>
    obtain ⟨mt, hmt, rfl⟩ := Option.map_eq_some_iff.mp h
    exact .removeClient ord hx hmt hpc
  next hpc => exact Option.some.inj h ▸ .release hx hpc
  next =>
    obtain ⟨x', hx', rfl⟩ := Option.map_eq_some_iff.mp h
    exact .moves hx (Session.moves_writeLoop hx')

theorem operate_effect {m : ℕ} {op : CriticalSection} (h : s.operate m op = some s') :
    RoverEffect s a s' := by
  unfold operate at h
  split at h
  · cases h
  next hop =>
    obtain ⟨mt, hmt, rfl⟩ := Option.map_eq_some_iff.mp h
    exact .operate _ hmt hop

theorem teardown_effect {j : ℕ} (h : s.teardown j = some s') : RoverEffect s a s' := by
  unfold teardown at h
  split at h
  · obtain ⟨x, hx, rfl⟩ := Option.map_eq_some_iff.mp h
    -- the connection of the client is closed already, so its kick is over
    split
    · exact .teardowns _
    · exact .moves hx x.moves_kick
  · cases h

theorem startBroadcast_effect {m : ℕ} {pkt : RTCMPacket} (h : s.startBroadcast m pkt = some s') :
    RoverEffect s a s' := by
  obtain ⟨mt, hmt, h⟩ := Option.bind_eq_some_iff.mp h
  split at h
  next hpc => exact Option.some.inj h ▸ .broadcast pkt hmt hpc
  next => cases h

/-- A broadcast, client by client. -/
theorem deliver_effect {m : ℕ} {case : SendCase} (h : s.deliver m case = some s') :
    RoverEffect s a s' := by
  obtain ⟨mt, hmt, h⟩ := Option.bind_eq_some_iff.mp h
  split at h
  next => cases h
  next hpc => exact Option.some.inj h ▸ .finish hmt hpc
  next hpc =>
    obtain ⟨x, hx, rfl⟩ := Option.map_eq_some_iff.mp h
    split
    next hdone => exact .skip hmt (.inl hpc) hx (.inr hdone)
    next hdone => exact .enter hmt hpc hx (Bool.eq_false_iff.mpr hdone)
  next hpc =>
    obtain ⟨x, hx, h⟩ := Option.bind_eq_some_iff.mp h
    split at h
    · obtain ⟨x', hx', rfl⟩ := Option.map_eq_some_iff.mp h
      exact .accept hmt hpc hx (Session.trySend_accepts hx')
    · obtain ⟨hdone, h⟩ := Option.ite_none_right_eq_some.mp h
      exact Option.some.inj h ▸ .skip hmt (.inr (.inl hpc)) hx (.inr hdone)
    · obtain ⟨-, h⟩ := Option.ite_none_right_eq_some.mp h
      exact Option.some.inj h ▸ .refuse hmt hpc
  next hpc => exact Option.some.inj h ▸ .slowClients _ hmt hpc
  next hpc => exact Option.some.inj h ▸ .kickCount hmt hpc
  next hpc =>
    obtain ⟨x, hx, rfl⟩ := Option.map_eq_some_iff.mp h
    split
    -- the flag was set already: the swap fails and the loop goes on
    next hslow => exact .skip hmt (.inr (.inr (.inr ⟨hpc, hslow⟩))) hx (.inl hpc)
    next hslow => exact .markSlow hmt hpc hx (Bool.eq_false_iff.mpr hslow)
  next hpc =>
    obtain ⟨x, hx, rfl⟩ := Option.map_eq_some_iff.mp h
    split
    next hcl => exact .skip hmt (.inr (.inr (.inl hpc))) hx (.inr (by simp [Session.isDone, hcl]))
    next => exact .moves hx x.moves_kick

/-- Every step has one of the effects. -/
theorem step_effect (h : s.step a = some s') : RoverEffect s a s' := by
  cases a with
  | connect mount id userID => exact Option.some.inj h ▸ .connect mount id userID
  | handler i ord r => exact handler_effect h
  | writeLoop i case ord r => exact writeLoop_effect h
  | watch i =>
    obtain ⟨x, hx, h⟩ := Option.bind_eq_some_iff.mp h
    obtain ⟨x', hx', rfl⟩ := Option.map_eq_some_iff.mp h
    exact .moves hx (Session.moves_watch hx')
  | closeConn i =>
    obtain ⟨x, hx, h⟩ := Option.bind_eq_some_iff.mp h
    obtain ⟨x', hx', rfl⟩ := Option.map_eq_some_iff.mp h
    exact .moves hx (Session.moves_closeConn hx')
  | operate m op => exact operate_effect h
  | teardown j => exact teardown_effect h
  | broadcast m pkt => exact startBroadcast_effect h
  | deliver m case => exact deliver_effect h

end RoverState

end NtripCaster
