import NtripCaster.Rover.Teardown
import NtripCaster.Source.ReadLoop

/-!
# The source side of the caster

The base stations of a server on top of its rovers (`RoverState`), one step of one goroutine at a
time: the end of the handshake with `source.New`, the read loop with its `Broadcast` calls, and
the calls that take a source off its mountpoint, by whomever they are made. A `Broadcast` call here
belongs to a read loop, so that those of a source and of its successor can overlap.

## Main definitions

* `ReadLoopPC`, `SourceSession`: the state of one base station
* `RemovalCall`: a call of `ClearSource`, `KickSourceByUser` or `DisconnectAll`
* `SlotEvent`: what a run has done so far
* `CasterState`, `CasterStep`, `CasterState.step`, `casterSystem`
* `CasterEffect`: what a step can do

## Main results

* `RoverState.slot_step`: no step of a rover or of a `Broadcast` call touches the slots
* `CasterState.step_effect`: every step has one of the effects
* `CasterState.rovers_goes`, `casterSystem_known`: what every step and every run leaves of the
  rovers
-/

namespace NtripCaster

open Transition

/-- The next step of a base station: the check and the registration of its handshake, the response
and the start of `ReadLoop`, the `select` and the `Read` of the loop, the packets of one `Read`,
which are broadcast one by one, and the two deferred calls. A `rejected` connection has been closed
by the handler. -/
inductive ReadLoopPC
  | isEnabled
  | setSource
  | respond
  | select
  | read
  | packets (todo : List RTCMPacket)
  | broadcast (todo : List RTCMPacket)
  | clearSource (call : ℕ)
  | close
  | finished
  | rejected
  deriving DecidableEq, Repr

/-- `SetSource` has accepted the source. -/
def ReadLoopPC.admitted : ReadLoopPC → Bool
  | isEnabled | setSource | rejected => false
  | _ => true

/-- The goroutine of the read loop has been started and has not ended. -/
def ReadLoopPC.running : ReadLoopPC → Bool
  | select | read | packets _ | broadcast _ | clearSource _ | close => true
  | _ => false

/-- A `source.Source`; its `ref` is its index. -/
structure SourceSession where
  mount : ℕ
  info : SourceInfo
  pc : ReadLoopPC
  closeOnce : CloseState
  framer : RTCMFramer
  /-- The `Broadcast` call of the read loop. -/
  broadcast : BroadcastPC

namespace SourceSession

variable (x : SourceSession)

/-- `Done` is closed. -/
def isDone : Bool := x.closeOnce != .notRun

/-- `Close` up to `close(s.Done)`: the first caller closes `Done`. -/
def close : SourceSession :=
  if x.closeOnce = .notRun then { x with closeOnce := .doneClosed } else x

/-- The rest of `Close`: the caller that closed `Done` closes the connection. -/
def closeConn : Option SourceSession :=
  if x.closeOnce = .doneClosed then some { x with closeOnce := .connClosed } else none

end SourceSession

/-- A connection whose handler has authenticated it and has looked up the mountpoint. -/
def newSource (ref mount : ℕ) (id : Bytes) (userID : ℤ) : SourceSession where
  mount := mount
  info := ⟨ref, id, userID⟩
  pc := .isEnabled
  closeOnce := .notRun
  framer := {}
  broadcast := .idle

/-! ## Calls that remove a source -/

/-- A call that may take the source off a mountpoint. -/
inductive RemovalOp
  | clearSource (srcID : Bytes)
  | kickSourceByUser (userID : ℤ)
  | disconnectAll
  deriving DecidableEq, Repr

/-- Its critical section. -/
def RemovalOp.criticalSection (ord ord' : RangeOrder Client) : RemovalOp → CriticalSection
  | clearSource srcID => .clearSource ord srcID
  | kickSourceByUser userID => .kickSourceByUser ord ord' userID
  | disconnectAll => .disconnectAll ord

/-- Where the call stands: at the `SourceID` of an admin, at its critical section, at the `Stop` of
the source it has removed, at its kicks (which teardown), or returned. -/
inductive RemovalPC
  | sourceID
  | enter
  | stop (kick : List Client)
  | kick (teardown : ℕ)
  | returned
  deriving DecidableEq, Repr

/-- A call, with the source that it has taken off. -/
structure RemovalCall where
  mount : ℕ
  op : RemovalOp
  pc : RemovalPC
  removed : Option ℕ
  deriving DecidableEq, Repr

/-! ## The caster -/

/-- What has happened: source `k` has taken the slot of its mountpoint, rover `i` has been
registered, a packet of source `k` has been put into the `WriteChan` of rover `i` while `holder` was
in the slot. -/
inductive SlotEvent
  | took (k : ℕ)
  | joined (i : ℕ)
  | put (k i : ℕ) (pkt : RTCMPacket) (holder : Option SourceInfo)
  deriving DecidableEq, Repr

/-- What a step of the `Broadcast` call of source `k` puts into a `WriteChan`. -/
def SourceSession.puts (x : SourceSession) (k : ℕ) (case : SendCase) (holder : Option SourceInfo) :
    List SlotEvent :=
  match x.broadcast, case with
  | .select pkt c _, .writeChan => [.put k c.ref pkt holder]
  | _, _ => []

/-- Rovers, base stations and removing calls of a server, and what has happened. -/
structure CasterState where
  rovers : RoverState
  sources : List SourceSession
  calls : List RemovalCall
  log : List SlotEvent

/-- A step, with its choices. A `Read` of a base station returns bytes or fails. -/
inductive CasterStep
  | rover (a : RoverStep)
  | connect (mount : ℕ) (id : Bytes) (userID : ℤ)
  | source (k : ℕ) (read : Option Bytes)
  | deliver (k : ℕ) (case : SendCase)
  | closeConn (k : ℕ)
  | kickSource (mount : ℕ)
  | kickSourceByUser (mount : ℕ) (userID : ℤ)
  | disconnectAll (mount : ℕ)
  | call (j : ℕ) (ord ord' : RangeOrder Client)

/-- The steps of rovers and mountpoints that are not part of a source or of a removing call. -/
def RoverStep.sparesSource : RoverStep → Bool
  | .broadcast .. | .deliver .. => false
  | .operate _ (.setSource _) | .operate _ (.clearSource ..) => false
  | .operate _ (.kickSourceByUser ..) | .operate _ (.disconnectAll _) => false
  | _ => true

/-- The slot of a mountpoint. -/
def RoverState.slot (r : RoverState) (m : ℕ) : Option SourceInfo :=
  (r.mounts[m]?).bind fun mt => mt.point.source

namespace CasterState

variable (s : CasterState)

/-- Source session `k` moves on. -/
def setSource (k : ℕ) (x : SourceSession) : CasterState :=
  { s with sources := s.sources.set k x }

/-- Call `j` moves on. -/
def setCall (j : ℕ) (c : RemovalCall) : CasterState := { s with calls := s.calls.set j c }

/-- A step of the `Broadcast` call of a read loop, as of the one call in progress on its
mountpoint. -/
def moveBroadcast (x : SourceSession) (a : RoverStep) : Option (RoverState × BroadcastPC) :=
  (s.rovers.mounts[x.mount]?).bind fun mt =>
    ((s.rovers.setBroadcast x.mount mt x.broadcast).step a).bind fun r =>
      (r.mounts[x.mount]?).map fun mt' => (r.setBroadcast x.mount mt' .idle, mt'.broadcast)

/-- `defer s.Mount.ClearSource(s.ID)`: the read loop has ended. -/
def leave (k : ℕ) (x : SourceSession) : CasterState :=
  { s with
    sources := s.sources.set k { x with pc := .clearSource s.calls.length }
    calls := s.calls ++ [⟨x.mount, .clearSource x.info.id, .enter, none⟩] }

/-- The next step of a base station, with the result of a `Read`. -/
def source (k : ℕ) (read : Option Bytes) : Option CasterState :=
  (s.sources[k]?).bind fun x =>
    (s.rovers.mounts[x.mount]?).bind fun mt =>
      match x.pc with
      | .isEnabled =>
        some (s.setSource k { x with pc := if mt.point.enabled then .setSource else .rejected })
      | .setSource =>
        if (mt.point.setSource x.info).2 then
          some { s with
            rovers := s.rovers.setMount x.mount { mt with point := (mt.point.setSource x.info).1 }
            sources := s.sources.set k { x with pc := .respond }
            log := s.log ++ [.took k] }
        else some (s.setSource k { x with pc := .rejected })
      | .respond => some (s.setSource k { x with pc := .select })
      | .select =>
        if x.isDone then some (s.leave k x) else some (s.setSource k { x with pc := .read })
      | .read =>
        match read with
        | none => some (s.leave k x)
        | some b =>
          if x.closeOnce ≠ .connClosed ∧ Readable readLoopSize b then
            some (s.setSource k
              { x with framer := (x.framer.push b).1, pc := .packets (x.framer.push b).2 })
          else none
      | .packets [] => some (s.setSource k { x with pc := .select })
      | .packets (pkt :: todo) =>
        (s.moveBroadcast x (.broadcast x.mount pkt)).map fun (rovers, pc) =>
          { s.setSource k { x with pc := .broadcast todo, broadcast := pc } with rovers := rovers }
      | .broadcast todo =>
        if x.broadcast = .idle then some (s.setSource k { x with pc := .packets todo }) else none
      | .clearSource j =>
        (s.calls[j]?).bind fun c =>
          if c.pc = .returned then some (s.setSource k { x with pc := .close }) else none
      | .close =>
        if x.closeOnce = .connClosed then some (s.setSource k { x with pc := .finished })
        else some (s.setSource k x.close)
      | .finished | .rejected => none

/-- A step of a `Broadcast` call, which may put its packet into a `WriteChan`. -/
def deliver (k : ℕ) (case : SendCase) : Option CasterState :=
  (s.sources[k]?).bind fun x =>
    (s.moveBroadcast x (.deliver x.mount case)).map fun (rovers, pc) =>
      { s.setSource k { x with broadcast := pc } with
        rovers := rovers
        log := s.log ++ x.puts k case (s.rovers.slot x.mount) }

/-- The next step of a removing call, with the orders of its loops. -/
def call (j : ℕ) (ord ord' : RangeOrder Client) : Option CasterState :=
  (s.calls[j]?).bind fun c =>
    (s.rovers.mounts[c.mount]?).bind fun mt =>
      match c.pc with
      | .sourceID =>
        some (s.setCall j { c with op := .clearSource mt.point.sourceID, pc := .enter })
      | .enter =>
        let op := c.op.criticalSection ord ord'
        some { s with
          rovers := s.rovers.setMount c.mount { mt with point := mt.point.apply op }
          calls := s.calls.set j { c with
            pc := .stop (mt.point.teardown op).kick
            removed := (mt.point.teardown op).stop.map SourceInfo.ref } }
      | .stop kick =>
        -- `Stop` returns when the connection is closed, whoever closes it
        if ∀ k ∈ c.removed, ∀ x ∈ s.sources[k]?, x.closeOnce = .connClosed then
          some { s with
            rovers := { s.rovers with teardowns := s.rovers.teardowns ++ [kick] }
            calls := s.calls.set j { c with pc := .kick s.rovers.teardowns.length } }
        else
          c.removed.bind fun k => (s.sources[k]?).map fun x => s.setSource k x.close
      | .kick i =>
        -- the loop of kicks is a teardown of its own
        if s.rovers.teardowns[i]? = some [] then some (s.setCall j { c with pc := .returned })
        else none
      | .returned => none

/-- A rover, a source session or a call that removes sources makes its next step. -/
def step : CasterStep → Option CasterState
  | .rover a =>
    if a.sparesSource then
      (s.rovers.step a).map fun rovers =>
        { s with
          rovers := rovers
          log := s.log ++ (s.rovers.joining a).toList.map fun x => .joined x.client.ref }
    else none
  | .connect mount id userID =>
    -- IDs are drawn, and distinct
    if ∀ x ∈ s.sources, x.info.id ≠ id then
      some { s with sources := s.sources ++ [newSource s.sources.length mount id userID] }
    else none
  | .source k read => s.source k read
  | .deliver k case => s.deliver k case
  | .closeConn k => (s.sources[k]?).bind fun x => x.closeConn.map (s.setSource k)
  | .kickSource mount =>
    some { s with calls := s.calls ++ [⟨mount, .clearSource [], .sourceID, none⟩] }
  | .kickSourceByUser mount userID =>
    some { s with calls := s.calls ++ [⟨mount, .kickSourceByUser userID, .enter, none⟩] }
  | .disconnectAll mount =>
    some { s with calls := s.calls ++ [⟨mount, .disconnectAll, .enter, none⟩] }
  | .call j ord ord' => s.call j ord ord'

end CasterState

/-- The base stations and rovers of a server from `NewServer` on. The mountpoints are all those that
are ever created: one that is not created yet has no sessions. -/
def casterSystem (maxClients : ℤ) : System CasterState CasterStep where
  init s := ∃ mounts : List Mount, (∀ mt ∈ mounts, mt.Fresh) ∧
    s = ⟨⟨newGlobalLimiter maxClients, mounts, [], []⟩, [], [], []⟩
  step := CasterState.step

/-! ## Slots and rover steps -/

/-- Critical sections that leave the source alone. -/
theorem MountPoint.source_apply_spares {m : MountPoint} {op : CriticalSection} {k : ℕ}
    (h : (RoverStep.operate k op).sparesSource = true) : (m.apply op).source = m.source := by
  cases op with
  | setSource info => cases h
  | clearSource ord srcID => cases h
  | kickSourceByUser ord ord' userID => cases h
  | disconnectAll ord => cases h
  | addClient ord c =>
    simp only [MountPoint.apply]
    split
    next hadd => exact addClient_source hadd
    next => rfl
  | removeClient ord id => exact (m.removeClient_loses ord id).source
  | kickClient ord id =>
    simp only [MountPoint.apply, MountPoint.kickClient]
    split <;> rfl
  | kickClientsByUser ord ord' userID =>
    simp only [MountPoint.apply, MountPoint.kickClientsByUser]
    split <;> rfl
  | update description format enabled writeQueue writeTimeout maxClients => rfl

namespace RoverState

variable {r r' : RoverState} {a : RoverStep}

theorem slot_of_getElem? {m : ℕ} {mt : Mount} (hmt : r.mounts[m]? = some mt) :
    r.slot m = mt.point.source := by
  rw [slot, hmt, Option.bind_some]

/-- A mountpoint changes and keeps its source. -/
theorem slot_set {m : ℕ} {mt mt' : Mount} (hmt : r.mounts[m]? = some mt)
    (h : mt'.point.source = mt.point.source) (hr : r'.mounts = r.mounts.set m mt') (n : ℕ) :
    r'.slot n = r.slot n := by
  have hlt := (List.getElem?_eq_some_iff.mp hmt).1
  by_cases hmn : m = n
  · subst hmn
    rw [slot_of_getElem? hmt, slot, hr, List.getElem?_set_self hlt, Option.bind_some, h]
  · rw [slot, slot, hr, List.getElem?_set_ne hmn]

theorem slot_setBroadcast {m : ℕ} {mt : Mount} (hmt : r.mounts[m]? = some mt) (pc : BroadcastPC)
    (n : ℕ) : (r.setBroadcast m mt pc).slot n = r.slot n := by
  have hsource : ({ mt with broadcast := pc } : Mount).point.source = mt.point.source := rfl
  exact slot_set hmt hsource rfl n

theorem length_mounts_effect (h : RoverEffect r a r') : r'.mounts.length = r.mounts.length := by
  cases h <;> simp [setSession, setMount, setBroadcast]

/-- No step of a rover or of a `Broadcast` call touches the slots. -/
theorem slot_step (h : r.step a = some r')
    (ha : a.sparesSource = true ∨ (∃ m pkt, a = .broadcast m pkt) ∨ ∃ m case, a = .deliver m case)
    (m : ℕ) : r'.slot m = r.slot m := by
  cases step_mountStep h with
  | keeps hk =>
    have hlen := length_mounts_effect (step_effect h)
    cases hm' : r'.mounts[m]? with
    | none =>
      have hm : r.mounts[m]? = none := by
        rw [List.getElem?_eq_none_iff] at hm' ⊢
        omega
      rw [slot, slot, hm', hm]
    | some mt' =>
      obtain ⟨mt, hmt, hl⟩ := hk.mounts m mt' hm'
      rw [slot_of_getElem? hm', slot_of_getElem? hmt, hl.source]
  | register hr hx hmt hpc hc hadd => exact slot_set hmt (MountPoint.addClient_source hadd) rfl m
  | @operate n op mt hr hop hmt =>
    subst hr
    have hspares : (RoverStep.operate n op).sparesSource = true := by
      rcases ha with ha | ⟨_, _, ha⟩ | ⟨_, _, ha⟩
      · exact ha
      · cases ha
      · cases ha
    exact slot_set hmt (MountPoint.source_apply_spares hspares) rfl m
  | next hr hj hc => rfl

end RoverState

/-! ## What a step can do -/

/-- The read loop is on its way round, or about to be started. -/
def ReadLoopPC.looping : ReadLoopPC → Bool
  | respond | select | read | packets _ | broadcast _ => true
  | _ => false

/-- How a base station may change without anybody else: its handler checks or refuses, its read
loop goes on or ends, or its connection is being closed. -/
inductive SourceSession.Moves (calls : List RemovalCall) (x : SourceSession) : SourceSession → Prop
  | check {pc : ReadLoopPC} (h : x.pc.admitted = false) (h' : pc.admitted = false) :
    Moves calls x { x with pc := pc }
  | loop {pc : ReadLoopPC} (h : x.pc = .respond ∨ x.pc = .select ∨ x.pc = .packets [])
      (h' : pc = .select ∨ pc = .read) : Moves calls x { x with pc := pc }
  | next {todo : List RTCMPacket} (h : x.pc = .broadcast todo) (hidle : x.broadcast = .idle) :
    Moves calls x { x with pc := .packets todo }
  | close {j : ℕ} {c : RemovalCall} (h : x.pc = .clearSource j) (hc : calls[j]? = some c)
      (hreturned : c.pc = .returned) : Moves calls x { x with pc := .close }
  | finish (h : x.pc = .close) (hclosed : x.closeOnce = .connClosed) :
    Moves calls x { x with pc := .finished }
  | closing {c : CloseState} (h : x.closeOnce.rank ≤ c.rank) :
    Moves calls x { x with closeOnce := c }

/-- The effects of a step. -/
inductive CasterEffect (s : CasterState) (a : CasterStep) : CasterState → Prop
  | rover {b : RoverStep} {r : RoverState} (ha : a = .rover b) (hb : b.sparesSource = true)
      (h : s.rovers.step b = some r) :
    CasterEffect s a { s with
      rovers := r
      log := s.log ++ (s.rovers.joining b).toList.map fun x => .joined x.client.ref }
  | connect (mount : ℕ) (id : Bytes) (userID : ℤ) (hid : ∀ x ∈ s.sources, x.info.id ≠ id) :
    CasterEffect s a { s with sources := s.sources ++ [newSource s.sources.length mount id userID] }
  | moves {k : ℕ} {x x' : SourceSession} (hx : s.sources[k]? = some x)
      (h : x.Moves s.calls x') : CasterEffect s a (s.setSource k x')
  | read {k : ℕ} {x : SourceSession} {b : Bytes} (ha : a = .source k (some b))
      (hx : s.sources[k]? = some x) (hpc : x.pc = .read) :
    CasterEffect s a (s.setSource k
      { x with framer := (x.framer.push b).1, pc := .packets (x.framer.push b).2 })
  | took {k : ℕ} {x : SourceSession} {mt : Mount} (ha : ∃ read, a = .source k read)
      (hx : s.sources[k]? = some x)
      (hmt : s.rovers.mounts[x.mount]? = some mt) (hpc : x.pc = .setSource)
      (hfree : mt.point.source = none) :
    CasterEffect s a { s with
      rovers := s.rovers.setMount x.mount { mt with point := (mt.point.setSource x.info).1 }
      sources := s.sources.set k { x with pc := .respond }
      log := s.log ++ [.took k] }
  | leave {k : ℕ} {x : SourceSession} (hx : s.sources[k]? = some x)
      (hpc : x.pc = .select ∨ x.pc = .read) : CasterEffect s a (s.leave k x)
  | broadcast {k : ℕ} {x : SourceSession} {pkt : RTCMPacket} {todo : List RTCMPacket}
      {r : RoverState} {pc : BroadcastPC} (hx : s.sources[k]? = some x)
      (hpc : x.pc = .packets (pkt :: todo))
      (h : s.moveBroadcast x (.broadcast x.mount pkt) = some (r, pc)) :
    CasterEffect s a
      { s.setSource k { x with pc := .broadcast todo, broadcast := pc } with rovers := r }
  | deliver {k : ℕ} {x : SourceSession} {case : SendCase} {r : RoverState} {pc : BroadcastPC}
      (hx : s.sources[k]? = some x) (h : s.moveBroadcast x (.deliver x.mount case) = some (r, pc)) :
    CasterEffect s a { s.setSource k { x with broadcast := pc } with
      rovers := r
      log := s.log ++ x.puts k case (s.rovers.slot x.mount) }
  | request {c : RemovalCall} (hremoved : c.removed = none)
      (hpc : c.pc = .sourceID ∨ c.pc = .enter ∧ ∀ srcID, c.op ≠ .clearSource srcID) :
    CasterEffect s a { s with calls := s.calls ++ [c] }
  | sourceID {j : ℕ} {c : RemovalCall} (srcID : Bytes) (hc : s.calls[j]? = some c)
      (hpc : c.pc = .sourceID) :
    CasterEffect s a (s.setCall j { c with op := .clearSource srcID, pc := .enter })
  | enter {j : ℕ} {c : RemovalCall} {mt : Mount} (ord ord' : RangeOrder Client)
      (ha : a = .call j ord ord') (hc : s.calls[j]? = some c)
      (hmt : s.rovers.mounts[c.mount]? = some mt) (hpc : c.pc = .enter) :
    CasterEffect s a { s with
      rovers := s.rovers.setMount c.mount
        { mt with point := mt.point.apply (c.op.criticalSection ord ord') }
      calls := s.calls.set j { c with
        pc := .stop (mt.point.teardown (c.op.criticalSection ord ord')).kick
        removed := (mt.point.teardown (c.op.criticalSection ord ord')).stop.map SourceInfo.ref } }
  | kick {j : ℕ} {c : RemovalCall} {kick : List Client} (hc : s.calls[j]? = some c)
      (hpc : c.pc = .stop kick)
      (hclosed : ∀ k ∈ c.removed, ∀ x ∈ s.sources[k]?, x.closeOnce = .connClosed) :
    CasterEffect s a { s with
      rovers := { s.rovers with teardowns := s.rovers.teardowns ++ [kick] }
      calls := s.calls.set j { c with pc := .kick s.rovers.teardowns.length } }
  | returned {j i : ℕ} {c : RemovalCall} (hc : s.calls[j]? = some c) (hpc : c.pc = .kick i)
      (h : s.rovers.teardowns[i]? = some []) :
    CasterEffect s a (s.setCall j { c with pc := .returned })

theorem SourceSession.moves_close (calls : List RemovalCall) (x : SourceSession) :
    x.Moves calls x.close := by
  unfold SourceSession.close
  split
  next h => exact .closing (by rw [h]; exact Nat.zero_le 1)
  next => exact .closing (Nat.le_refl x.closeOnce.rank)

namespace CasterState

variable {s s' : CasterState}

/-- A read loop, from `SetSource` to the deferred `ClearSource`. -/
theorem source_effect {k : ℕ} {read : Option Bytes} (h : s.source k read = some s') :
    CasterEffect s (.source k read) s' := by
  obtain ⟨x, hx, h⟩ := Option.bind_eq_some_iff.mp h
  obtain ⟨mt, hmt, h⟩ := Option.bind_eq_some_iff.mp h
  split at h
  next hpc =>
    refine Option.some.inj h ▸ .moves hx (.check (by rw [hpc]; rfl) ?_)
    split <;> rfl
  next hpc =>
    split at h
    next hset =>
      refine Option.some.inj h ▸ .took ⟨read, rfl⟩ hx hmt hpc ?_
      unfold MountPoint.setSource at hset
      split at hset
      · cases hset
      next hfree => exact Option.not_isSome_iff_eq_none.mp hfree
    next => exact Option.some.inj h ▸ .moves hx (.check (by rw [hpc]; rfl) rfl)
  next hpc => exact Option.some.inj h ▸ .moves hx (.loop (.inl hpc) (.inl rfl))
  next hpc =>
    split at h
    · exact Option.some.inj h ▸ .leave hx (.inl hpc)
    · exact Option.some.inj h ▸ .moves hx (.loop (.inr (.inl hpc)) (.inr rfl))
  next hpc =>
    split at h
    · exact Option.some.inj h ▸ .leave hx (.inr hpc)
    · obtain ⟨-, h⟩ := Option.ite_none_right_eq_some.mp h
      exact Option.some.inj h ▸ .read rfl hx hpc
  next hpc => exact Option.some.inj h ▸ .moves hx (.loop (.inr (.inr hpc)) (.inl rfl))
  next hpc =>
    obtain ⟨⟨r, pc⟩, hmove, rfl⟩ := Option.map_eq_some_iff.mp h
    exact .broadcast hx hpc hmove
  next hpc =>
    obtain ⟨hidle, h⟩ := Option.ite_none_right_eq_some.mp h
    exact Option.some.inj h ▸ .moves hx (.next hpc hidle)
  next hpc =>
    obtain ⟨c, hc, h⟩ := Option.bind_eq_some_iff.mp h
    obtain ⟨hreturned, h⟩ := Option.ite_none_right_eq_some.mp h
    exact Option.some.inj h ▸ .moves hx (.close hpc hc hreturned)
  next hpc =>
    split at h
    next hclosed => exact Option.some.inj h ▸ .moves hx (.finish hpc hclosed)
    next => exact Option.some.inj h ▸ .moves hx (x.moves_close s.calls)
  next => cases h
  next => cases h

theorem call_effect {j : ℕ} {ord ord' : RangeOrder Client} (h : s.call j ord ord' = some s') :
    CasterEffect s (.call j ord ord') s' := by
  obtain ⟨c, hc, h⟩ := Option.bind_eq_some_iff.mp h
  obtain ⟨mt, hmt, h⟩ := Option.bind_eq_some_iff.mp h
  split at h
  next hpc => exact Option.some.inj h ▸ .sourceID _ hc hpc
  next hpc => exact Option.some.inj h ▸ .enter ord ord' rfl hc hmt hpc
  next kick hpc =>
    split at h
    next hclosed => exact Option.some.inj h ▸ .kick hc hpc hclosed
    next =>
      obtain ⟨k, -, h⟩ := Option.bind_eq_some_iff.mp h
      obtain ⟨x, hx, rfl⟩ := Option.map_eq_some_iff.mp h
      exact .moves hx (x.moves_close s.calls)
  next i hpc =>
    obtain ⟨hi, h⟩ := Option.ite_none_right_eq_some.mp h
    exact Option.some.inj h ▸ .returned hc hpc hi
  next => cases h

/-- Every step has one of the effects. -/
theorem step_effect {a : CasterStep} (h : s.step a = some s') : CasterEffect s a s' := by
  cases a with
  | rover a =>
    obtain ⟨ha, h⟩ := Option.ite_none_right_eq_some.mp h
    obtain ⟨r, hr, rfl⟩ := Option.map_eq_some_iff.mp h
    exact .rover rfl ha hr
  | connect mount id userID =>
    obtain ⟨hid, h⟩ := Option.ite_none_right_eq_some.mp h
    exact Option.some.inj h ▸ .connect mount id userID hid
  | source k read => exact source_effect h
  | deliver k case =>
    obtain ⟨x, hx, h⟩ := Option.bind_eq_some_iff.mp h
    obtain ⟨⟨r, pc⟩, hmove, rfl⟩ := Option.map_eq_some_iff.mp h
    exact .deliver hx hmove
  | closeConn k =>
    obtain ⟨x, hx, h⟩ := Option.bind_eq_some_iff.mp h
    obtain ⟨x', hx', rfl⟩ := Option.map_eq_some_iff.mp h
    obtain ⟨-, hx'⟩ := Option.ite_none_right_eq_some.mp hx'
    exact Option.some.inj hx' ▸ .moves hx (.closing x.closeOnce.rank_le)
  | kickSource mount => exact Option.some.inj h ▸ .request rfl (.inl rfl)
  | kickSourceByUser mount userID =>
    exact Option.some.inj h ▸ .request rfl (.inr ⟨rfl, nofun⟩)
  | disconnectAll mount => exact Option.some.inj h ▸ .request rfl (.inr ⟨rfl, nofun⟩)
  | call j ord ord' => exact call_effect h

end CasterState

/-! ## What a step leaves of the rovers -/

namespace RoverState

variable {r r' : RoverState} {a : RoverStep} {m i : ℕ}

/-- Rover `i` has been accepted by `AddClient` of mountpoint `m`. -/
def Joined (r : RoverState) (m i : ℕ) : Prop :=
  ∃ x, r.sessions[i]? = some x ∧ x.mount = m ∧ x.pc.admitted = true

theorem joined_of_registered {d : Client} (h : Registered r.sessions m d) : r.Joined m d.ref := by
  obtain ⟨x, hx, -, hm, hreg⟩ := h
  exact ⟨x, hx, hm, RoverPC.admitted_of_registered hreg⟩

/-- Once on a mountpoint, a rover session belongs to it for good. -/
theorem Joined.effect (h : r.Joined m i) (he : RoverEffect r a r') : r'.Joined m i := by
  cases he with
  | connect mount id userID =>
    obtain ⟨x, hx, hrest⟩ := h
    exact ⟨x, getElem?_append_of_eq_some hx, hrest⟩
  | moves hx hmove =>
    refine exists_getElem?_set hx h fun _ ⟨hm, ha⟩ => ?_
    exact ⟨hmove.mount.trans hm, hmove.admitted.trans ha⟩
  | teardowns t => exact h
  | addClient ha hx hmt hpc hc hadd =>
    exact exists_getElem?_set hx h fun _ ⟨hm, _⟩ => ⟨hm, rfl⟩
  | add hx hpc => exact exists_getElem?_set hx h fun _ ⟨hm, _⟩ => ⟨hm, rfl⟩
  | removeClient ord hx hmt hpc => exact exists_getElem?_set hx h fun _ ⟨hm, _⟩ => ⟨hm, rfl⟩
  | release hx hpc => exact exists_getElem?_set hx h fun _ ⟨hm, _⟩ => ⟨hm, rfl⟩
  | operate t hmt hop => exact h
  | broadcast pkt hmt hpc => exact h
  | finish hmt hpc => exact h
  | enter hmt hpc hx hdone => exact h
  | skip hmt hpc hx hdone => exact h
  | accept hmt hpc hx hacc =>
    refine exists_getElem?_set hx h fun _ ⟨hm, ha⟩ => ?_
    exact ⟨hacc.mount.trans hm, hacc.admitted.trans ha⟩
  | refuse hmt hpc => exact h
  | slowClients n hmt hpc => exact h
  | kickCount hmt hpc => exact h
  | markSlow hmt hpc hx hslow => exact exists_getElem?_set hx h fun _ hp => hp

/-- The client is in the map of mountpoint `m`. -/
def IsClient (r : RoverState) (m : ℕ) (d : Client) : Prop :=
  ∃ mt id, r.mounts[m]? = some mt ∧ mt.point.clientsByID.lookup id = some d

/-- The clients of a map are those in the snapshot. -/
theorem isClient_iff (hr : Known r.mounts r.sessions) {d : Client} :
    r.IsClient m d ↔ ∃ mt, r.mounts[m]? = some mt ∧ d ∈ mt.point.snapshot := by
  constructor
  · rintro ⟨mt, id, hmt, hd⟩
    have hrep := hr.rep m mt hmt
    refine ⟨mt, hmt, ?_⟩
    rw [hrep.mem_snapshot, hrep.own_id id d hd]
    exact hd
  · rintro ⟨mt, hmt, hd⟩
    exact ⟨mt, d.id, hmt, (hr.rep m mt hmt).mem_snapshot.mp hd⟩

/-- Who is in a map belongs to a session that has been registered. -/
theorem IsClient.registered (hr : Known r.mounts r.sessions) {d : Client} (h : r.IsClient m d) :
    Registered r.sessions m d := by
  obtain ⟨mt, hmt, hd⟩ := (isClient_iff hr).mp h
  exact hr.snapshot m mt hmt d hd

/-- What every step leaves of the rovers. -/
structure Goes (r r' : RoverState) : Prop where
  known : Known r.mounts r.sessions → Known r'.mounts r'.sessions
  joined : ∀ m i, r.Joined m i → r'.Joined m i
  isClient : Known r.mounts r.sessions → ∀ m d, r'.IsClient m d →
    r.IsClient m d ∨ ∀ n, ¬ r.Joined n d.ref
  teardowns : r.teardowns.length ≤ r'.teardowns.length
  kicking : ∀ j d, j < r.teardowns.length → r'.Kicking j d → r.Kicking j d

theorem Goes.refl (r : RoverState) : r.Goes r :=
  ⟨id, fun _ _ => id, fun _ _ _ => .inl, Nat.le_refl _, fun _ _ _ => id⟩

theorem Goes.trans {r'' : RoverState} (h : r.Goes r') (h' : r'.Goes r'') : r.Goes r'' where
  known := h'.known ∘ h.known
  joined m i := h'.joined m i ∘ h.joined m i
  isClient hr m d hd := by
    rcases h'.isClient (h.known hr) m d hd with hd | hd
    · exact h.isClient hr m d hd
    · exact .inr fun n hn => hd n (h.joined n d.ref hn)
  teardowns := h.teardowns.trans h'.teardowns
  kicking j d hj hk := h.kicking j d hj (h'.kicking j d (hj.trans_le h.teardowns) hk)

/-- Who is in a map after a step was there, or is registered in the step. -/
theorem IsClient.of_step (hr : Known r.mounts r.sessions) (h : r.step a = some r') {d : Client}
    (hd : r'.IsClient m d) : r.IsClient m d ∨ ∀ n, ¬ r.Joined n d.ref := by
  obtain ⟨mt', id, hmt', hd⟩ := hd
  cases step_mountStep h with
  | keeps hk =>
    obtain ⟨mt, hmt, hl⟩ := hk.mounts m mt' hmt'
    exact .inl ⟨mt, id, hmt, hl.lookup id d hd⟩
  | @register i x mt ord w c mp ha hx hmt hpc hc hadd =>
    rcases getElem?_set_eq_some hmt' with ⟨rfl, rfl⟩ | ⟨-, hmt'⟩
    · rcases MountPoint.lookup_addClient hadd hd with rfl | hd
      · right
        rintro n ⟨y, hy, -, hadm⟩
        rw [(newClient_eq_some hc).1, hr.ref i x hx] at hy
        rw [← Option.some.inj (hx.symm.trans hy), hpc] at hadm
        cases hadm
      · exact .inl ⟨mt, id, hmt, hd⟩
    · exact .inl ⟨mt', id, hmt', hd⟩
  | operate ha hop hmt =>
    rcases getElem?_set_eq_some hmt' with ⟨rfl, rfl⟩ | ⟨-, hmt'⟩
    · exact .inl ⟨_, id, hmt, MountPoint.lookup_apply hop hd⟩
    · exact .inl ⟨mt', id, hmt', hd⟩
  | next ha hj hc => exact .inl ⟨mt', id, hmt', hd⟩

/-- A step of a rover, of a mountpoint or of a `Broadcast` call. -/
theorem goes_step (h : r.step a = some r') : r.Goes r' := by
  refine ⟨fun hr => hr.effect (step_effect h), fun m i hi => hi.effect (step_effect h),
    fun hr m d hd => hd.of_step hr h, ?_, ?_⟩
  · cases step_mountStep h with
    | keeps hk => exact Nat.le_of_eq (congrArg List.length hk.teardowns.symm)
    | register ha hx hmt hpc hc hadd => exact Nat.le_refl _
    | operate ha hop hmt => simp
    | next ha hj hc => simp
  · intro j d hj hk
    cases step_mountStep h with
    | keeps hkeep => rwa [Kicking, hkeep.teardowns] at hk
    | register ha hx hmt hpc hc hadd => exact hk
    | operate ha hop hmt =>
      obtain ⟨l, hl, hd⟩ := hk
      exact ⟨l, (List.getElem?_append_left hj).symm.trans hl, hd⟩
    | next ha hk' hc =>
      obtain ⟨l, hl, hd⟩ := hk
      rcases getElem?_set_eq_some hl with ⟨rfl, rfl⟩ | ⟨-, hl⟩
      · exact ⟨_, hk', List.mem_cons_of_mem _ hd⟩
      · exact ⟨l, hl, hd⟩

/-- A critical section that registers no client. -/
theorem goes_setMount {mt : Mount} {op : CriticalSection} (hmt : r.mounts[m]? = some mt)
    (hop : ∀ ord c, op ≠ .addClient ord c) :
    r.Goes (r.setMount m { mt with point := mt.point.apply op }) where
  known hr := hr.shrinkMount hmt ((hr.rep m mt hmt).apply op) fun _ hd =>
    (hr.rep m mt hmt).mem_snapshot_apply hop hd
  joined _ _ hi := hi
  isClient := by
    rintro - n d ⟨mt', id, hmt', hd⟩
    rcases getElem?_set_eq_some hmt' with ⟨rfl, rfl⟩ | ⟨-, hmt'⟩
    · exact .inl ⟨mt, id, hmt, MountPoint.lookup_apply hop hd⟩
    · exact .inl ⟨mt', id, hmt', hd⟩
  teardowns := Nat.le_refl _
  kicking _ _ _ hk := hk

theorem goes_setBroadcast {mt : Mount} (hmt : r.mounts[m]? = some mt) (pc : BroadcastPC) :
    r.Goes (r.setBroadcast m mt pc) where
  known hr := hr.samePoint hmt rfl
  joined _ _ hi := hi
  isClient := by
    rintro - n d ⟨mt', id, hmt', hd⟩
    rcases getElem?_set_eq_some hmt' with ⟨rfl, rfl⟩ | ⟨-, hmt'⟩
    · exact .inl ⟨mt, id, hmt, hd⟩
    · exact .inl ⟨mt', id, hmt', hd⟩
  teardowns := Nat.le_refl _
  kicking _ _ _ hk := hk

/-- The loop of kicks of a call starts. -/
theorem goes_teardowns (kick : List Client) :
    r.Goes { r with teardowns := r.teardowns ++ [kick] } where
  known hr := hr
  joined _ _ hi := hi
  isClient _ _ _ hd := .inl hd
  teardowns := by simp
  kicking j d hj := by
    rintro ⟨l, hl, hd⟩
    exact ⟨l, (List.getElem?_append_left hj).symm.trans hl, hd⟩

end RoverState

/-- No removing call registers a client. -/
theorem RemovalOp.criticalSection_ne {op : RemovalOp} {ord ord' : RangeOrder Client}
    (o : RangeOrder Client) (c : Client) : op.criticalSection ord ord' ≠ .addClient o c := by
  cases op <;> nofun

namespace CasterState

variable {s s' : CasterState} {x : SourceSession} {a : RoverStep} {r : RoverState}
  {pc : BroadcastPC}

/-- A step of the `Broadcast` call of a read loop is one of a `Broadcast` call, and leaves the
mountpoint to the other calls as it was. -/
theorem moveBroadcast_eq_some (h : s.moveBroadcast x a = some (r, pc)) :
    ∃ mt r' mt', s.rovers.mounts[x.mount]? = some mt ∧
      (s.rovers.setBroadcast x.mount mt x.broadcast).step a = some r' ∧
        r'.mounts[x.mount]? = some mt' ∧ r = r'.setBroadcast x.mount mt' .idle ∧
          pc = mt'.broadcast := by
  obtain ⟨mt, hmt, h⟩ := Option.bind_eq_some_iff.mp h
  obtain ⟨r', hstep, h⟩ := Option.bind_eq_some_iff.mp h
  obtain ⟨mt', hmt', h⟩ := Option.map_eq_some_iff.mp h
  obtain ⟨rfl, rfl⟩ := Prod.mk.inj h
  exact ⟨mt, r', mt', hmt, hstep, hmt', rfl, rfl⟩

theorem moveBroadcast_goes (h : s.moveBroadcast x a = some (r, pc)) : s.rovers.Goes r := by
  obtain ⟨mt, r', mt', hmt, hstep, hmt', rfl, -⟩ := moveBroadcast_eq_some h
  exact ((RoverState.goes_setBroadcast hmt _).trans (RoverState.goes_step hstep)).trans
    (RoverState.goes_setBroadcast hmt' _)

theorem moveBroadcast_slot
    (ha : (∃ m pkt, a = .broadcast m pkt) ∨ ∃ m case, a = .deliver m case)
    (h : s.moveBroadcast x a = some (r, pc)) (m : ℕ) : r.slot m = s.rovers.slot m := by
  obtain ⟨mt, r', mt', hmt, hstep, hmt', rfl, -⟩ := moveBroadcast_eq_some h
  calc (r'.setBroadcast x.mount mt' .idle).slot m
    _ = r'.slot m := RoverState.slot_setBroadcast hmt' .idle m
    _ = (s.rovers.setBroadcast x.mount mt x.broadcast).slot m :=
      RoverState.slot_step hstep (.inr ha) m
    _ = s.rovers.slot m := RoverState.slot_setBroadcast hmt x.broadcast m

/-- Every step leaves this much of the rovers. -/
theorem rovers_goes {a : CasterStep} (he : CasterEffect s a s') : s.rovers.Goes s'.rovers := by
  cases he with
  | rover ha hb h => exact RoverState.goes_step h
  | connect mount id userID hid => exact .refl s.rovers
  | moves hx h => exact .refl s.rovers
  | read ha hx hpc => exact .refl s.rovers
  | @took k x mt ha hx hmt hpc hfree =>
    have hop : ∀ ord c, CriticalSection.setSource x.info ≠ .addClient ord c := nofun
    exact RoverState.goes_setMount hmt hop
  | leave hx hpc => exact .refl s.rovers
  | broadcast hx hpc h => exact moveBroadcast_goes h
  | deliver hx h => exact moveBroadcast_goes h
  | request hremoved hpc => exact .refl s.rovers
  | sourceID srcID hc hpc => exact .refl s.rovers
  | enter ord ord' ha hc hmt hpc =>
    exact RoverState.goes_setMount hmt RemovalOp.criticalSection_ne
  | kick hc hpc hclosed => exact RoverState.goes_teardowns _
  | returned hc hpc h => exact .refl s.rovers

end CasterState

theorem casterSystem_known {maxClients : ℤ} {s : CasterState}
    (h : (casterSystem maxClients).Reachable s) : Known s.rovers.mounts s.rovers.sessions := by
  refine h.invariant (I := fun s => Known s.rovers.mounts s.rovers.sessions) ?_
    fun s a s' _ hs hstep => (CasterState.rovers_goes (CasterState.step_effect hstep)).known hs
  rintro s ⟨mounts, hfresh, rfl⟩
  exact .init hfresh

end NtripCaster
