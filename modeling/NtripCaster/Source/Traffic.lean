import NtripCaster.Rover.Delivery
import NtripCaster.Source.ReadLoop

/-!
# Outbound traffic

One source session on a mountpoint among its rovers: `ReadLoop` of `internal/source/source.go` with
its calls of `Broadcast` and `addBytesOut`, one step of one goroutine at a time. A packet is counted
after it has been broadcast, from the number of clients that are registered by then; who has taken
it is decided before, client by client. `BytesOut` is exact as long as, at each count, the clients
that missed the packet are as many as those that took it and have left.

## Main definitions

* `TrafficPC`, `TrafficState`, `TrafficStep`, `trafficSystem`
* `takers`, `acceptedBytes`: what the `WriteChan`s of a mountpoint have accepted
* `Balanced`: the condition on a step
* `TrafficState.drift`: how far the count is off

## Main results

* `Publishing.step`: what every step keeps
* `drift_step`: only a count that is not balanced changes how far the count is off
* `bytesOut_exact_iff`: the count over a run
* `bytesOut_not_exact`: a client that is registered and `Done`
-/

namespace NtripCaster

open Transition RoverState

/-- The next step of a source session: `SetSource`; `Read`; the packets of one `Read`; the
`Broadcast` call for a packet, and then the `Load` of `addBytesOut`; its `Add`, with what it adds;
the deferred `ClearSource`. -/
inductive TrafficPC
  | setSource
  | read
  | packets (todo : List RTCMPacket)
  | broadcast (pkt : RTCMPacket) (todo : List RTCMPacket)
  | add (n : ℤ) (todo : List RTCMPacket)
  | clearSource
  | finished
  deriving DecidableEq, Repr

namespace TrafficPC

/-- No packet is between its `Broadcast` and the end of its `addBytesOut`. -/
def settled : TrafficPC → Bool
  | broadcast .. | add .. => false
  | _ => true

/-- The packet of the `Broadcast` call. -/
def broadcasting : TrafficPC → Option RTCMPacket
  | broadcast pkt _ => some pkt
  | _ => none

/-- The packets that are being broadcast or are still to come. -/
def packetsLeft : TrafficPC → List RTCMPacket
  | packets todo | add _ todo => todo
  | broadcast pkt todo => pkt :: todo
  | _ => []

end TrafficPC

/-- The rovers, and the source session: its framer and `Source.BytesIn`. -/
structure TrafficState where
  rovers : RoverState
  framer : RTCMFramer
  bytesIn : ℤ
  pc : TrafficPC

/-- A step of a rover, of an operation or of the `Broadcast` call, or one of the source session. A
`Read` returns bytes or fails; `ord` is the order of a loop over the clients. -/
inductive TrafficStep
  | rover (a : RoverStep)
  | source (read : Option Bytes) (ord : RangeOrder Client)

/-- A call of `Broadcast` on mountpoint `m`. -/
def RoverStep.broadcasts (m : ℕ) : RoverStep → Bool
  | .broadcast m' _ => m' == m
  | _ => false

/-- A mountpoint's counters are set. -/
def RoverState.setStats (s : RoverState) (m : ℕ) (mt : Mount) (stats : MountStats) : RoverState :=
  s.setMount m { mt with point := { mt.point with stats := stats } }

/-- What `addBytesOut` adds to `BytesOut`; without clients it adds nothing. -/
def addBytesOut (stats : MountStats) (pkt : RTCMPacket) : Option ℤ :=
  let cc := stats.clientCount
  if 0 < cc then some (pkt.data.length * cc) else none

namespace TrafficState

variable (s : TrafficState)

/-- The next step of the source session `info` on mountpoint `m`. -/
def source (m : ℕ) (info : SourceInfo) (read : Option Bytes) (ord : RangeOrder Client) :
    Option TrafficState :=
  (s.rovers.mounts[m]?).bind fun mt =>
    match s.pc with
    | .setSource =>
      (s.rovers.step (.operate m (.setSource info))).map fun rovers =>
        { s with rovers := rovers, pc := if (mt.point.setSource info).2 then .read else .finished }
    | .read =>
      match read with
      | none => some { s with pc := .clearSource } -- `Done` is closed, or `Read` fails
      | some b =>
        if Readable readLoopSize b then
          let stats := { mt.point.stats with bytesIn := mt.point.stats.bytesIn + b.length }
          some {
            rovers := s.rovers.setStats m mt stats
            framer := (s.framer.push b).1
            bytesIn := s.bytesIn + b.length
            pc := .packets (s.framer.push b).2 }
        else none
    | .packets [] => some { s with pc := .read }
    | .packets (pkt :: todo) =>
      -- the position in a 1005 message has no part in the counters
      (s.rovers.step (.broadcast m pkt)).map fun rovers =>
        { s with rovers := rovers, pc := .broadcast pkt todo }
    | .broadcast pkt todo =>
      -- `Broadcast` has returned
      if mt.broadcast = .idle then
        some { s with pc := (addBytesOut mt.point.stats pkt).elim (.packets todo) (.add · todo) }
      else none
    | .add n todo =>
      let stats := { mt.point.stats with bytesOut := mt.point.stats.bytesOut + n }
      some { s with rovers := s.rovers.setStats m mt stats, pc := .packets todo }
    | .clearSource =>
      (s.rovers.step (.operate m (.clearSource ord info.id))).map fun rovers =>
        { s with rovers := rovers, pc := .finished }
    | .finished => none

/-- Nobody but the source session broadcasts on its mountpoint. -/
def step (m : ℕ) (info : SourceInfo) : TrafficStep → Option TrafficState
  | .rover a =>
    if a.broadcasts m then none
    else (s.rovers.step a).map fun rovers => { s with rovers := rovers }
  | .source read ord => s.source m info read ord

end TrafficState

/-- A source session on mountpoint `m` of a server that has just been started. -/
def trafficSystem (maxClients : ℤ) (m : ℕ) (info : SourceInfo) :
    System TrafficState TrafficStep where
  init s := (roverSystem maxClients).init s.rovers ∧ s.framer = {} ∧ s.bytesIn = 0 ∧
    s.pc = .setSource
  step s a := s.step m info a

/-! ## What is accepted -/

/-- The `WriteChan` of this client of mountpoint `m` has accepted broadcast `n`. -/
def Session.took (x : Session) (m n : ℕ) : Bool :=
  x.mount == m && (x.accepted.map Prod.fst).contains n

/-- The clients of mountpoint `m` whose `WriteChan` has accepted broadcast `n`. -/
def takers (sessions : List Session) (m n : ℕ) : ℕ := sessions.countP (·.took m n)

/-- The lengths of the packets broadcast, each as often as its `Broadcast` had takers. -/
def acceptedBytes (log : List (RTCMPacket × List Client)) (takers : ℕ → ℕ) : ℕ :=
  (log.zipIdx.map fun e => e.1.1.data.length * takers e.2).sum

/-- The count of mountpoint `m` is exact. -/
def TrafficState.Exact (s : TrafficState) (m : ℕ) : Prop :=
  ∀ mt ∈ s.rovers.mounts[m]?,
    mt.point.stats.bytesOut = acceptedBytes mt.log (takers s.rovers.sessions m)

namespace RoverState

variable (s : RoverState) (m : ℕ) (mt : Mount)

/-- The registered clients that have not accepted the last broadcast. -/
def missed : ℕ :=
  mt.point.clientsByID.values.countP fun c =>
    !(s.sessions[c.ref]?).any (·.took m (mt.log.length - 1))

/-- The clients that have accepted the last broadcast and are not registered any more. -/
def left : ℕ :=
  s.sessions.countP fun x =>
    x.took m (mt.log.length - 1) && !mt.point.clientsByID.values.contains x.client

end RoverState

/-- What `addBytesOut` has still to add. -/
def TrafficPC.due : TrafficPC → ℤ
  | add n _ => n
  | _ => 0

/-- The broadcasts that `addBytesOut` has loaded a number of clients for. -/
def TrafficPC.loaded (log : List (RTCMPacket × List Client)) :
    TrafficPC → List (RTCMPacket × List Client)
  | broadcast .. => log.dropLast
  | _ => log

/-- How far the count of mountpoint `m` is off. -/
def Mount.drift (mt : Mount) (m : ℕ) (sessions : List Session) (pc : TrafficPC) : ℤ :=
  mt.point.stats.bytesOut + pc.due - acceptedBytes (pc.loaded mt.log) (takers sessions m)

/-- The same of a whole state. -/
def TrafficState.drift (s : TrafficState) (m : ℕ) : ℤ :=
  (s.rovers.mounts[m]?).elim 0 fun mt => mt.drift m s.rovers.sessions s.pc

/-- The condition on a step: when `addBytesOut` loads the number of clients, those that have missed
the packet are as many as those that have accepted it and left. -/
def Balanced (m : ℕ) (s : TrafficState) (a : TrafficStep) : Bool :=
  match a, s.pc, s.rovers.mounts[m]? with
  | .source .., .broadcast .., some mt => s.rovers.missed m mt == s.rovers.left m mt
  | _, _, _ => true

theorem RoverStep.ne_broadcast {a : RoverStep} {m : ℕ} (h : a.broadcasts m = false)
    (pkt : RTCMPacket) : a ≠ .broadcast m pkt := by
  rintro rfl
  simp [broadcasts] at h

/-! ## Takers -/

section Takers

variable {sessions : List Session} {i m n : ℕ} {x x' : Session}

theorem took_congr (hmount : x'.mount = x.mount) (hacc : x'.accepted = x.accepted) :
    x'.took m n = x.took m n := by
  rw [Session.took, Session.took, hmount, hacc]

/-- A session moves and has accepted broadcast `n` if it had. -/
theorem takers_set (hx : sessions[i]? = some x) (htook : x'.took m n = x.took m n) :
    takers (sessions.set i x') m n = takers sessions m n := by
  have hcount := countP_set (b := x') (fun x : Session => x.took m n) hx
  rw [htook] at hcount
  exact Nat.add_right_cancel hcount

theorem took_newSession (ref mount : ℕ) (id : Bytes) (userID : ℤ) :
    (newSession ref mount id userID).took m n = false := Bool.and_false _

/-- A client accepts a packet of broadcast `k`, of its own mountpoint: nothing else changes. -/
theorem took_accepts {k : ℕ} {pkt : RTCMPacket} (hacc : Session.Accepts k pkt x x')
    (hne : x.mount = m → n ≠ k) : x'.took m n = x.took m n := by
  rw [Session.took, Session.took, hacc.mount, hacc.accepted]
  by_cases hm : x.mount = m
  · have hmem : n ∈ (x.accepted ++ [(k, pkt)]).map Prod.fst ↔ n ∈ x.accepted.map Prod.fst := by
      simp [hne hm]
    rw [List.contains_eq_mem, List.contains_eq_mem, decide_eq_decide.mpr hmem]
  · rw [beq_false_of_ne hm, Bool.false_and, Bool.false_and]

end Takers

/-- The clients of different sessions are different. -/
theorem Known.nodup_clients {mounts : List Mount} {sessions : List Session}
    (h : Known mounts sessions) : (sessions.map Session.client).Nodup := by
  have hrefs : (sessions.map Session.client).map Client.ref = List.range sessions.length := by
    refine List.ext_getElem (by simp) fun i hi _ => ?_
    have hi' : i < sessions.length := by simpa using hi
    simpa using h.ref i sessions[i] (List.getElem?_eq_getElem hi')
  refine List.Nodup.of_map Client.ref ?_
  rw [hrefs]
  exact List.nodup_range

/-- The registered clients are those that have accepted the last broadcast and those that have
missed it; those that have accepted it are still registered or have left. -/
theorem len_add_left {s : RoverState} {m : ℕ} {mt : Mount} (h : Known s.mounts s.sessions)
    (hmt : s.mounts[m]? = some mt) : mt.point.clientsByID.len + s.left m mt =
      s.missed m mt + takers s.sessions m (mt.log.length - 1) := by
  unfold RoverState.left RoverState.missed takers
  generalize mt.log.length - 1 = n
  have hrep := h.rep m mt hmt
  -- both sides of the overlap are the same clients
  have hperm : (mt.point.clientsByID.values.filter fun c =>
        (s.sessions[c.ref]?).any (·.took m n)).Perm
      ((s.sessions.filter fun x =>
        x.took m n && mt.point.clientsByID.values.contains x.client).map Session.client) := by
    have hnodup := hrep.snapshot_perm.nodup_iff.mp hrep.nodup_snapshot
    refine (List.perm_ext_iff_of_nodup (hnodup.filter _)
      (h.nodup_clients.sublist (List.filter_sublist.map _))).mpr fun c => ?_
    simp only [List.mem_filter, List.mem_map, Bool.and_eq_true, List.contains_iff_mem,
      Option.any_eq_true]
    constructor
    · rintro ⟨hc, x, hx, htook⟩
      obtain ⟨y, hy, hyc, -⟩ := h.snapshot m mt hmt c (hrep.snapshot_perm.mem_iff.mpr hc)
      obtain rfl := Option.some.inj (hx.symm.trans hy)
      exact ⟨x, ⟨List.mem_of_getElem? hx, htook, hyc.symm ▸ hc⟩, hyc⟩
    · rintro ⟨x, ⟨hx, htook, hc⟩, rfl⟩
      obtain ⟨i, hi⟩ := List.getElem?_of_mem hx
      exact ⟨hc, x, by rw [h.ref i x hi]; exact hi, htook⟩
  have hoverlap := hperm.length_eq
  rw [List.length_map, ← List.countP_eq_length_filter, ← List.countP_eq_length_filter] at hoverlap
  have hmissed := List.length_eq_countP_add_countP
    (fun c : Client => (s.sessions[c.ref]?).any (·.took m n)) (l := mt.point.clientsByID.values)
  have hleft := List.countP_eq_countP_filter_add s.sessions (·.took m n)
    (fun x => mt.point.clientsByID.values.contains x.client)
  rw [GoMap.length_values] at hmissed
  simp only [List.countP_filter] at hleft
  simp only [Bool.not_eq_true, Bool.decide_eq_false] at hmissed hleft
  omega

/-- What the count of mountpoint `m` sees of a step of the rovers: `BytesOut` stays, and only the
broadcast in progress finds takers. -/
structure Untouched (m : ℕ) (s s' : RoverState) (mt mt' : Mount) : Prop where
  mount : s'.mounts[m]? = some mt'
  log : mt'.log = mt.log
  bytesOut : mt'.point.stats.bytesOut = mt.point.stats.bytesOut
  idle : mt.broadcast = .idle → mt'.broadcast = .idle
  takers : ∀ n, (mt.broadcast = .idle ∨ n + 1 ≠ mt.log.length) →
    takers s'.sessions m n = takers s.sessions m n

namespace Untouched

variable {s s' : RoverState} {a : RoverStep} {m : ℕ} {mt : Mount}

/-- `BytesOut` of a mountpoint, and its `Broadcast` call if there is none. -/
def Counts (mt mt' : Mount) : Prop :=
  mt'.point.stats.bytesOut = mt.point.stats.bytesOut ∧
    (mt.broadcast = .idle → mt'.broadcast = .idle)

/-- The counters and the `Broadcast` call after a step that broadcasts nothing on `m`. -/
theorem counts_step (h : s.step a = some s') (ha : a.broadcasts m = false)
    (hmt : s.mounts[m]? = some mt) : ∃ mt', s'.mounts[m]? = some mt' ∧ Counts mt mt' := by
  have hsame : ∃ mt', s.mounts[m]? = some mt' ∧ Counts mt mt' := ⟨mt, hmt, rfl, id⟩
  -- a mountpoint that a step moves is `m`, or another one
  have hset : ∀ {k : ℕ} {y z : Mount}, s.mounts[k]? = some y → Counts y z →
      ∃ mt', (s.mounts.set k z)[m]? = some mt' ∧ Counts mt mt' := by
    intro k y z hy hyz
    refine exists_getElem?_set hy hsame fun _ hc => ⟨hyz.1.trans hc.1, fun hidle => ?_⟩
    exact hyz.2 (hc.2 hidle)
  have hlog := log_step h (RoverStep.ne_broadcast ha)
  cases step_effect h with
  | connect mount id userID => exact hsame
  | moves hx hmove => exact hsame
  | teardowns t => exact hsame
  | @addClient i x y ord r c mp _ hx hy hpc hc hadd =>
    have hbytes := MountPoint.bytesOut_apply (m := y.point) (.addClient ord c)
    simp only [MountPoint.apply, hadd] at hbytes
    exact hset hy ⟨hbytes, id⟩
  | add hx hpc => exact hsame
  | @removeClient i x y ord hx hy hpc =>
    exact hset hy ⟨MountPoint.bytesOut_apply (.removeClient ord x.client.id), id⟩
  | release hx hpc => exact hsame
  | @operate k y op t hy hop => exact hset hy ⟨MountPoint.bytesOut_apply op, id⟩
  | @broadcast k y pkt hy hpc =>
    refine exists_getElem?_set hy hsame fun hk _ => ?_
    subst hk
    rw [hy] at hlog
    simp [setMount, getElem?_set_of_eq_some hy] at hlog
  | finish hy hpc => exact hset hy ⟨rfl, fun _ => rfl⟩
  | enter hy hpc hx hdone => exact hset hy ⟨rfl, fun hidle => by rw [hpc] at hidle; cases hidle⟩
  | skip hy hpc hx hdone =>
    refine hset hy ⟨rfl, fun hidle => ?_⟩
    rw [hidle] at hpc
    rcases hpc with hpc | hpc | hpc | ⟨hpc, -⟩ <;> cases hpc
  | accept hy hpc hx hacc => exact hset hy ⟨rfl, fun hidle => by rw [hpc] at hidle; cases hidle⟩
  | refuse hy hpc => exact hset hy ⟨rfl, fun hidle => by rw [hpc] at hidle; cases hidle⟩
  | slowClients k hy hpc => exact hset hy ⟨rfl, fun hidle => by rw [hpc] at hidle; cases hidle⟩
  | kickCount hy hpc => exact hset hy ⟨rfl, fun hidle => by rw [hpc] at hidle; cases hidle⟩
  | markSlow hy hpc hx hslow =>
    exact hset hy ⟨rfl, fun hidle => by rw [hpc] at hidle; cases hidle⟩

/-- The takers after a step: only a client that accepts makes a difference, and it accepts the last
broadcast of its mountpoint. -/
theorem takers_step (hs : Serving s) (h : s.step a = some s') (hmt : s.mounts[m]? = some mt) {n : ℕ}
    (hn : mt.broadcast = .idle ∨ n + 1 ≠ mt.log.length) :
    NtripCaster.takers s'.sessions m n = NtripCaster.takers s.sessions m n := by
  cases step_effect h with
  | connect mount id userID =>
    simp [NtripCaster.takers, took_newSession]
  | moves hx hmove => exact takers_set hx (took_congr hmove.mount hmove.accepted)
  | teardowns t => rfl
  | addClient _ hx hy hpc hc hadd => exact takers_set hx rfl
  | add hx hpc => exact takers_set hx rfl
  | removeClient ord hx hy hpc => exact takers_set hx rfl
  | release hx hpc => exact takers_set hx rfl
  | operate t hy hop => rfl
  | broadcast pkt hy hpc => rfl
  | finish hy hpc => rfl
  | enter hy hpc hx hdone => rfl
  | skip hy hpc hx hdone => rfl
  | @accept k y pkt c todo x x' hy hpc hx hacc =>
    refine takers_set hx (took_accepts hacc fun hm => ?_)
    have hmem : c ∈ y.broadcast.pending := by
      rw [hpc]
      exact List.mem_cons_self
    obtain ⟨-, hmount, -⟩ := (hs.delivering k y hy).current_session hmem hx
    obtain rfl := hmount.symm.trans hm
    obtain rfl := Option.some.inj (hy.symm.trans hmt)
    obtain ⟨snap, hlast⟩ := (hs.delivering k y hy).current pkt (by rw [hpc]; rfl)
    have hpos : 0 < y.log.length := List.length_pos_iff.mpr fun hnil => by simp [hnil] at hlast
    rcases hn with hidle | hn
    · rw [hidle] at hpc
      cases hpc
    · omega
  | refuse hy hpc => rfl
  | slowClients k hy hpc => rfl
  | kickCount hy hpc => rfl
  | markSlow hy hpc hx hslow => exact takers_set hx rfl

/-- A step of the rovers leaves the count alone. -/
theorem of_step (hs : Serving s) (h : s.step a = some s') (ha : a.broadcasts m = false)
    (hmt : s.mounts[m]? = some mt) : ∃ mt', Untouched m s s' mt mt' := by
  obtain ⟨mt', hmt', hbytes, hidle⟩ := counts_step h ha hmt
  have hlog := log_step h (RoverStep.ne_broadcast ha)
  rw [hmt, hmt', Option.map_some, Option.map_some] at hlog
  exact ⟨mt', hmt', Option.some.inj hlog, hbytes, hidle, fun n hn => takers_step hs h hmt hn⟩

end Untouched

/-! ## What every step keeps -/

theorem mounts_setStats {r : RoverState} {m : ℕ} {mt : Mount} {stats : MountStats}
    (hmt : r.mounts[m]? = some mt) : (r.setStats m mt stats).mounts[m]? =
      some { mt with point := { mt.point with stats := stats } } :=
  getElem?_set_of_eq_some hmt

/-- The counters are set, except those that the sessions account for. -/
theorem Serving.setStats {r : RoverState} (h : Serving r) {m : ℕ} {mt : Mount} {stats : MountStats}
    (hmt : r.mounts[m]? = some mt) (hclients : stats.clientCount = mt.point.stats.clientCount)
    (honline : stats.sourceOnline = mt.point.stats.sourceOnline)
    (hkick : stats.kickCount = mt.point.stats.kickCount) : Serving (r.setStats m mt stats) where
  known := by
    have hrep := h.known.rep m mt hmt
    refine h.known.shrinkMount hmt ⟨hrep.snapshot_perm, hrep.own_id, ?_, ?_⟩ fun d hd => hd
    · exact hclients.trans hrep.clientCount
    · exact honline.trans hrep.sourceOnline
  delivered := h.delivered
  delivering := by
    refine Serving.delivering_set h.delivering (fun _ _ _ hd => hd) ?_
    exact (h.delivering m mt hmt).setPoint (fun d hd => hd) hkick

/-- The source session broadcasts on its mountpoint, and nobody else does. -/
structure Publishing (m : ℕ) (r : RoverState) (pc : TrafficPC) : Prop where
  serving : Serving r
  idle : ∀ mt, r.mounts[m]? = some mt → pc.broadcasting = none → mt.broadcast = .idle
  last : ∀ mt pkt, r.mounts[m]? = some mt → pc.broadcasting = some pkt →
    ∃ snap, mt.log.getLast? = some (pkt, snap)
  nonempty : ∀ pkt ∈ pc.packetsLeft, 0 < pkt.data.length

namespace Publishing

variable {m : ℕ} {r r' : RoverState} {pc pc' : TrafficPC} {mt : Mount}

/-- A step of the rovers. -/
theorem rovers (h : Publishing m r pc) {a : RoverStep} (hstep : r.step a = some r')
    (ha : a.broadcasts m = false) : Publishing m r' pc := by
  have hlog := log_step hstep (RoverStep.ne_broadcast ha)
  have hold : ∀ mt', r'.mounts[m]? = some mt' → ∃ mt, r.mounts[m]? = some mt ∧
      mt'.log = mt.log ∧ (mt.broadcast = .idle → mt'.broadcast = .idle) := by
    intro mt' hmt'
    cases hmt : r.mounts[m]? with
    | none =>
      rw [hmt, hmt'] at hlog
      cases hlog
    | some mt =>
      obtain ⟨mt'', hu⟩ := Untouched.of_step h.serving hstep ha hmt
      obtain rfl := Option.some.inj (hmt'.symm.trans hu.mount)
      exact ⟨mt, rfl, hu.log, hu.idle⟩
  refine ⟨h.serving.effect (step_effect hstep), fun mt' hmt' hpc => ?_,
    fun mt' pkt hmt' hpc => ?_, h.nonempty⟩
  · obtain ⟨mt, hmt, -, hidle⟩ := hold mt' hmt'
    exact hidle (h.idle mt hmt hpc)
  · obtain ⟨mt, hmt, hlog, -⟩ := hold mt' hmt'
    rw [hlog]
    exact h.last mt pkt hmt hpc

/-- The source session moves on, and no broadcast is in progress. -/
theorem setPC (h : Publishing m r pc)
    (hidle : ∀ mt, r.mounts[m]? = some mt → mt.broadcast = .idle)
    (hpc : pc'.broadcasting = none) (hleft : ∀ pkt ∈ pc'.packetsLeft, 0 < pkt.data.length) :
    Publishing m r pc' where
  serving := h.serving
  idle mt hmt _ := hidle mt hmt
  last mt pkt hmt heq := by
    rw [hpc] at heq
    cases heq
  nonempty := hleft

/-- The source session sets a counter. -/
theorem setStats (h : Publishing m r pc) (hmt : r.mounts[m]? = some mt) {stats : MountStats}
    (hclients : stats.clientCount = mt.point.stats.clientCount)
    (honline : stats.sourceOnline = mt.point.stats.sourceOnline)
    (hkick : stats.kickCount = mt.point.stats.kickCount) :
    Publishing m (r.setStats m mt stats) pc := by
  have hmount : ∀ y, (r.setStats m mt stats).mounts[m]? = some y →
      y = { mt with point := { mt.point with stats := stats } } := by
    intro y hy
    rw [mounts_setStats hmt] at hy
    exact (Option.some.inj hy).symm
  refine ⟨h.serving.setStats hmt hclients honline hkick, fun y hy hpc => ?_,
    fun y pkt hy hpc => ?_, h.nonempty⟩
  · rw [hmount y hy]
    exact h.idle mt hmt hpc
  · rw [hmount y hy]
    exact h.last mt pkt hmt hpc

/-- `Broadcast` is called for the next packet. -/
theorem broadcast {pkt : RTCMPacket} {todo : List RTCMPacket}
    (h : Publishing m r (.packets (pkt :: todo))) (hstep : r.step (.broadcast m pkt) = some r') :
    Publishing m r' (.broadcast pkt todo) := by
  obtain ⟨mt, hmt, hstart⟩ := Option.bind_eq_some_iff.mp hstep
  split at hstart
  · refine ⟨h.serving.effect (step_effect hstep), (fun _ _ hpc => nomatch hpc),
      fun y _ hy heq => ?_, h.nonempty⟩
    obtain rfl := Option.some.inj heq
    obtain rfl := Option.some.inj hstart
    rw [setMount, getElem?_set_of_eq_some hmt] at hy
    obtain rfl := Option.some.inj hy
    exact ⟨_, List.getLast?_concat⟩
  · cases hstart

end Publishing

/-- What comes out of the framer is not empty. -/
theorem RTCMFramer.length_pos_of_mem_push {f : RTCMFramer} {b : Bytes} {pkt : RTCMPacket}
    (h : pkt ∈ (f.push b).2) : 0 < pkt.data.length := by
  have hmem : pkt ∈ (f.pushAll [b]).2 := List.mem_append_left _ h
  rw [(RTCMFramer.mem_pushAll hmem).2]
  exact Nat.add_pos_left (by decide) _

namespace TrafficState

variable {m : ℕ} {info : SourceInfo} {s s' : TrafficState}

/-- The session logs a packet before it counts it, and broadcasts one at a time. -/
theorem source_publishing {read : Option Bytes} {ord : RangeOrder Client}
    (h : Publishing m s.rovers s.pc) (hstep : s.source m info read ord = some s') :
    Publishing m s'.rovers s'.pc := by
  obtain ⟨rovers, framer, bytesIn, pc⟩ := s
  obtain ⟨mt, hmt, hstep⟩ := Option.bind_eq_some_iff.mp hstep
  dsimp only at h hmt hstep
  have hgo : ∀ {r : RoverState} {pc pc' : TrafficPC}, Publishing m r pc → pc.broadcasting = none →
      pc'.broadcasting = none → (∀ pkt ∈ pc'.packetsLeft, 0 < pkt.data.length) →
      Publishing m r pc' :=
    fun h hpc hpc' hleft => h.setPC (fun mt hmt => h.idle mt hmt hpc) hpc' hleft
  split at hstep
  · obtain ⟨r, hr, rfl⟩ := Option.map_eq_some_iff.mp hstep
    dsimp only
    split
    · exact hgo (h.rovers hr rfl) rfl rfl nofun
    · exact hgo (h.rovers hr rfl) rfl rfl nofun
  · split at hstep
    · exact Option.some.inj hstep ▸ hgo h rfl rfl nofun
    · obtain ⟨-, hstep⟩ := Option.ite_none_right_eq_some.mp hstep
      refine Option.some.inj hstep ▸ hgo (h.setStats hmt rfl rfl rfl) rfl rfl fun pkt hpkt => ?_
      exact RTCMFramer.length_pos_of_mem_push hpkt
  · exact Option.some.inj hstep ▸ hgo h rfl rfl nofun
  · obtain ⟨r, hr, rfl⟩ := Option.map_eq_some_iff.mp hstep
    exact h.broadcast hr
  next pkt todo _ =>
    obtain ⟨hidle, hstep⟩ := Option.ite_none_right_eq_some.mp hstep
    have hall : ∀ y, rovers.mounts[m]? = some y → y.broadcast = .idle := fun y hy =>
      Option.some.inj (hmt.symm.trans hy) ▸ hidle
    have htodo : ∀ p ∈ todo, 0 < p.data.length := fun p hp =>
      h.nonempty p (List.mem_cons_of_mem pkt hp)
    obtain rfl := Option.some.inj hstep
    cases addBytesOut mt.point.stats pkt with
    | none => exact h.setPC hall rfl htodo
    | some n => exact h.setPC hall rfl htodo
  · exact Option.some.inj hstep ▸ hgo (h.setStats hmt rfl rfl rfl) rfl rfl h.nonempty
  · obtain ⟨r, hr, rfl⟩ := Option.map_eq_some_iff.mp hstep
    exact hgo (h.rovers hr rfl) rfl rfl nofun
  · cases hstep

theorem step_publishing {a : TrafficStep} (h : Publishing m s.rovers s.pc)
    (hstep : s.step m info a = some s') : Publishing m s'.rovers s'.pc := by
  cases a with
  | rover a =>
    obtain ⟨ha, hstep⟩ := Option.ite_none_left_eq_some.mp hstep
    obtain ⟨r, hr, rfl⟩ := Option.map_eq_some_iff.mp hstep
    exact h.rovers hr (Bool.eq_false_iff.mpr ha)
  | source read ord => exact source_publishing h hstep

end TrafficState

theorem trafficSystem_publishing {maxClients : ℤ} {m : ℕ} {info : SourceInfo} {s : TrafficState}
    (h : (trafficSystem maxClients m info).Reachable s) : Publishing m s.rovers s.pc := by
  refine h.invariant (I := fun s => Publishing m s.rovers s.pc) ?_ fun s a s' _ hs hstep =>
    TrafficState.step_publishing hs hstep
  rintro s ⟨⟨mounts, hfresh, hrovers⟩, -, -, hpc⟩
  have hidle : ∀ mt ∈ mounts, mt.broadcast = .idle := by
    intro mt hmt
    obtain ⟨_, _, _, _, _, _, rfl⟩ := hfresh mt hmt
    rfl
  rw [hrovers, hpc]
  refine ⟨.init hfresh, fun mt hmt _ => hidle mt (List.mem_of_getElem? hmt), ?_, ?_⟩
  · exact fun mt pkt _ h => nomatch h
  · exact fun pkt h => nomatch h

/-! ## How far the count is off -/

section AcceptedBytes

variable {log : List (RTCMPacket × List Client)} {f g : ℕ → ℕ}

theorem acceptedBytes_concat (e : RTCMPacket × List Client) :
    acceptedBytes (log ++ [e]) f = acceptedBytes log f + e.1.data.length * f log.length := by
  simp [acceptedBytes, List.zipIdx_append]

theorem acceptedBytes_congr (h : ∀ n < log.length, f n = g n) :
    acceptedBytes log f = acceptedBytes log g := by
  refine congrArg List.sum (List.map_congr_left fun e he => ?_)
  obtain ⟨-, hlt, -⟩ := List.mem_zipIdx he
  rw [h e.2 (by omega)]

end AcceptedBytes

/-- What the `Load` of `addBytesOut` puts the count off by. -/
def TrafficState.misread (s : TrafficState) (m : ℕ) (a : TrafficStep) : ℤ :=
  match a, s.pc, s.rovers.mounts[m]? with
  | .source .., .broadcast pkt _, some mt =>
    pkt.data.length * ((s.rovers.missed m mt : ℤ) - s.rovers.left m mt)
  | _, _, _ => 0

namespace TrafficState

variable {m : ℕ} {info : SourceInfo} {s s' : TrafficState} {a : TrafficStep} {mt mt' : Mount}

theorem drift_eq (hmt : s.rovers.mounts[m]? = some mt) :
    s.drift m = mt.drift m s.rovers.sessions s.pc := by
  rw [drift, hmt, Option.elim_some]

/-- Only the `Load` of `addBytesOut` may misread. -/
theorem misread_eq_zero (h : s.pc.broadcasting = none) : s.misread m a = 0 := by
  unfold misread
  split
  next hpc _ =>
    rw [hpc] at h
    cases h
  next => rfl

theorem misread_eq {read : Option Bytes} {ord : RangeOrder Client} {pkt : RTCMPacket}
    {todo : List RTCMPacket} (hpc : s.pc = .broadcast pkt todo)
    (hmt : s.rovers.mounts[m]? = some mt) : s.misread m (.source read ord) =
      pkt.data.length * ((s.rovers.missed m mt : ℤ) - s.rovers.left m mt) := by
  simp only [misread, hpc, hmt]

/-- With no packet under way the count is exact if it is not off. -/
theorem exact_iff_drift (hset : s.pc.settled = true) : s.Exact m ↔ s.drift m = 0 := by
  have hpc : s.pc.due = 0 ∧ ∀ log, s.pc.loaded log = log := by
    cases hpc : s.pc with
    | broadcast pkt todo | add n todo =>
      rw [hpc] at hset
      cases hset
    | _ => exact ⟨rfl, fun _ => rfl⟩
  unfold Exact drift
  cases s.rovers.mounts[m]? with
  | none => simp
  | some mt =>
    simp only [Option.mem_some_iff, forall_eq', Option.elim_some, Mount.drift, hpc.1, hpc.2]
    omega

end TrafficState

/-- A step of the rovers does not change how far the count is off. -/
theorem Untouched.drift {r r' : RoverState} {pc : TrafficPC} {m : ℕ} {mt mt' : Mount}
    (hu : Untouched m r r' mt mt') (h : Publishing m r pc) (hmt : r.mounts[m]? = some mt) :
    mt'.drift m r'.sessions pc = mt.drift m r.sessions pc := by
  have hacc : acceptedBytes (pc.loaded mt.log) (NtripCaster.takers r'.sessions m) =
      acceptedBytes (pc.loaded mt.log) (NtripCaster.takers r.sessions m) := by
    refine acceptedBytes_congr fun n hn => hu.takers n ?_
    cases hpc : pc.broadcasting with
    | none => exact .inl (h.idle mt hmt hpc)
    | some pkt =>
      -- the last broadcast, which may find takers, is not among those loaded
      cases pc with
      | broadcast pkt todo =>
        simp only [TrafficPC.loaded, List.length_dropLast] at hn
        exact .inr (by omega)
      | _ => cases hpc
  rw [Mount.drift, Mount.drift, hu.bytesOut, hu.log, hacc]

namespace TrafficState

variable {m : ℕ} {info : SourceInfo} {s s' : TrafficState} {a : TrafficStep} {mt mt' : Mount}

/-- At its `Load` the count gets off by what is misread. -/
theorem drift_addBytesOut {r : RoverState} {pkt : RTCMPacket} {todo : List RTCMPacket}
    (h : Publishing m r (.broadcast pkt todo)) (hmt : r.mounts[m]? = some mt) :
    mt.drift m r.sessions ((addBytesOut mt.point.stats pkt).elim (.packets todo) (.add · todo)) =
      mt.drift m r.sessions (.broadcast pkt todo) +
        pkt.data.length * ((r.missed m mt : ℤ) - r.left m mt) := by
  obtain ⟨snap, hlast⟩ := h.last mt pkt hmt rfl
  obtain ⟨log, hlog⟩ := List.getLast?_eq_some_iff.mp hlast
  -- the number of clients is that of the map
  have hclients := (h.serving.known.rep m mt hmt).clientCount
  have hlen := len_add_left h.serving.known hmt
  have hnum : mt.log.length - 1 = log.length := by simp [hlog]
  rw [hnum] at hlen
  have hdue : ((addBytesOut mt.point.stats pkt).elim (.packets todo) (.add · todo) :
      TrafficPC).due = pkt.data.length * mt.point.clientsByID.len ∧
      ((addBytesOut mt.point.stats pkt).elim (.packets todo) (.add · todo) :
        TrafficPC).loaded mt.log = mt.log := by
    simp only [addBytesOut, hclients]
    split_ifs with hpos
    · exact ⟨rfl, rfl⟩
    · have hzero : mt.point.clientsByID.len = 0 := by omega
      exact ⟨by simp [hzero, TrafficPC.due], rfl⟩
  have hsum : (pkt.data.length : ℤ) * mt.point.clientsByID.len =
      pkt.data.length * takers r.sessions m log.length +
        pkt.data.length * ((r.missed m mt : ℤ) - r.left m mt) := by
    rw [← Int.mul_add]
    refine congrArg _ ?_
    omega
  rw [Mount.drift, Mount.drift, hdue.1, hdue.2]
  simp only [TrafficPC.loaded, TrafficPC.due, hlog, List.dropLast_concat, acceptedBytes_concat]
  push_cast
  omega

/-- Step by step of the read loop, `BytesOut` gets off only where the `Load` misreads. -/
theorem drift_source {read : Option Bytes} {ord : RangeOrder Client}
    (h : Publishing m s.rovers s.pc) (hstep : s.source m info read ord = some s') :
    s'.drift m = s.drift m + s.misread m (.source read ord) := by
  obtain ⟨rovers, framer, bytesIn, pc⟩ := s
  obtain ⟨mt, hmt, hstep⟩ := Option.bind_eq_some_iff.mp hstep
  dsimp only at h hmt hstep
  have hold : drift ⟨rovers, framer, bytesIn, pc⟩ m = mt.drift m rovers.sessions pc := drift_eq hmt
  -- a critical section, from one point between two packets to another
  have hoperate : ∀ {op : CriticalSection} {r : RoverState} {pc' : TrafficPC},
      rovers.step (.operate m op) = some r → pc'.due = pc.due →
      (∀ log, pc'.loaded log = pc.loaded log) →
      drift ⟨r, framer, bytesIn, pc'⟩ m = mt.drift m rovers.sessions pc := by
    intro op r pc' hr hdue hloaded
    obtain ⟨mt', hu⟩ := Untouched.of_step h.serving hr rfl hmt
    have hnew : drift ⟨r, framer, bytesIn, pc'⟩ m = mt'.drift m r.sessions pc' := drift_eq hu.mount
    rw [hnew, ← hu.drift h hmt, Mount.drift, Mount.drift, hdue, hloaded]
  have hstats : ∀ (stats : MountStats) (framer' : RTCMFramer) (bytesIn' : ℤ) (pc' : TrafficPC),
      drift ⟨rovers.setStats m mt stats, framer', bytesIn', pc'⟩ m =
        stats.bytesOut + pc'.due -
          acceptedBytes (pc'.loaded mt.log) (takers rovers.sessions m) := by
    intro stats framer' bytesIn' pc'
    rw [drift, mounts_setStats hmt]
    rfl
  split at hstep
  · obtain ⟨r, hr, rfl⟩ := Option.map_eq_some_iff.mp hstep
    rw [misread_eq_zero rfl, Int.add_zero, hold]
    split
    · exact hoperate hr rfl fun _ => rfl
    · exact hoperate hr rfl fun _ => rfl
  · rw [misread_eq_zero rfl, Int.add_zero, hold]
    split at hstep
    · exact Option.some.inj hstep ▸ hold
    · obtain ⟨-, hstep⟩ := Option.ite_none_right_eq_some.mp hstep
      exact Option.some.inj hstep ▸ hstats _ _ _ _
  · rw [misread_eq_zero rfl, Int.add_zero, hold]
    exact Option.some.inj hstep ▸ hold
  next pkt todo _ =>
    obtain ⟨r, hr, rfl⟩ := Option.map_eq_some_iff.mp hstep
    rw [misread_eq_zero rfl, Int.add_zero, hold]
    obtain ⟨y, hy, hstart⟩ := Option.bind_eq_some_iff.mp hr
    obtain rfl := Option.some.inj (hmt.symm.trans hy)
    split at hstart
    · obtain rfl := Option.some.inj hstart
      -- the new broadcast has not been counted yet
      rw [drift, setMount, getElem?_set_of_eq_some hmt, Option.elim_some, Mount.drift]
      simp only [TrafficPC.loaded, List.dropLast_concat]
      rfl
    · cases hstart
  next pkt todo _ =>
    obtain ⟨-, hstep⟩ := Option.ite_none_right_eq_some.mp hstep
    obtain rfl := Option.some.inj hstep
    rw [hold, misread_eq rfl hmt]
    exact (drift_eq hmt).trans (drift_addBytesOut h hmt)
  next n todo _ =>
    rw [misread_eq_zero rfl, Int.add_zero, hold]
    obtain rfl := Option.some.inj hstep
    rw [hstats, Mount.drift]
    simp only [TrafficPC.due, TrafficPC.loaded, Int.add_zero]
  · obtain ⟨r, hr, rfl⟩ := Option.map_eq_some_iff.mp hstep
    rw [misread_eq_zero rfl, Int.add_zero, hold]
    exact hoperate hr rfl fun _ => rfl
  · cases hstep

/-- Only a `Load` of `addBytesOut` changes how far the count is off. -/
theorem drift_step (h : Publishing m s.rovers s.pc) (hstep : s.step m info a = some s') :
    s'.drift m = s.drift m + s.misread m a := by
  cases a with
  | source read ord => exact drift_source h hstep
  | rover a =>
    obtain ⟨ha, hstep⟩ := Option.ite_none_left_eq_some.mp hstep
    obtain ⟨r, hr, rfl⟩ := Option.map_eq_some_iff.mp hstep
    have ha' : a.broadcasts m = false := Bool.eq_false_iff.mpr ha
    have hzero : s.misread m (.rover a) = 0 := rfl
    rw [hzero, Int.add_zero]
    cases hmt : s.rovers.mounts[m]? with
    | none =>
      have hlog := log_step hr (RoverStep.ne_broadcast ha')
      rw [hmt, Option.map_none, Option.map_eq_none_iff] at hlog
      rw [drift, drift, hmt, hlog]
      rfl
    | some mt =>
      obtain ⟨mt', hu⟩ := Untouched.of_step h.serving hr ha' hmt
      rw [drift_eq hmt, ← hu.drift h hmt]
      exact drift_eq hu.mount

/-- Nothing is misread exactly if the clients that missed the packet and those that left balance. -/
theorem misread_eq_zero_iff (h : Publishing m s.rovers s.pc) :
    s.misread m a = 0 ↔ Balanced m s a = true := by
  unfold misread Balanced
  split
  next pkt todo mt hpc hmt =>
    have hpos : 0 < pkt.data.length := by
      refine h.nonempty pkt ?_
      rw [hpc]
      exact List.mem_cons_self
    rw [beq_iff_eq, Int.mul_eq_zero]
    omega
  next => simp

/-- After the `Load` of `addBytesOut`, and after its `Add`, no broadcast is in progress. -/
theorem source_broadcasting {read : Option Bytes} {ord : RangeOrder Client}
    (hset : s.pc.settled = false) (hstep : s.source m info read ord = some s') :
    s'.pc.broadcasting = none := by
  obtain ⟨rovers, framer, bytesIn, pc⟩ := s
  obtain ⟨mt, hmt, hstep⟩ := Option.bind_eq_some_iff.mp hstep
  cases pc with
  | broadcast pkt todo =>
    obtain ⟨-, hstep⟩ := Option.ite_none_right_eq_some.mp hstep
    obtain rfl := Option.some.inj hstep
    dsimp only
    cases addBytesOut mt.point.stats pkt <;> rfl
  | add n todo => exact Option.some.inj hstep ▸ rfl
  | _ => cases hset

end TrafficState

section Runs

variable {maxClients : ℤ} {m : ℕ} {info : SourceInfo} {s₀ s : TrafficState}
  {as : List TrafficStep}

/-- A count that is off after a `Load` is off when the packet has been counted. -/
theorem exists_settled_off (hpub : Publishing m s₀.rovers s₀.pc)
    (hpc : s₀.pc.broadcasting = none) (hoff : s₀.drift m ≠ 0)
    (hrun : (trafficSystem maxClients m info).run s₀ as = some s) (hset : s.pc.settled = true) :
    ∃ as' t, as' <+: as ∧ (trafficSystem maxClients m info).run s₀ as' = some t ∧
      t.pc.settled = true ∧ t.drift m ≠ 0 := by
  induction as generalizing s₀ with
  | nil =>
    obtain rfl := Option.some.inj hrun
    exact ⟨[], s₀, List.nil_prefix, rfl, hset, hoff⟩
  | cons a as ih =>
    cases hset₀ : s₀.pc.settled with
    | true => exact ⟨[], s₀, List.nil_prefix, rfl, hset₀, hoff⟩
    | false =>
      obtain ⟨t, ht, hrun⟩ := Option.bind_eq_some_iff.mp hrun
      have hdrift := TrafficState.drift_step hpub ht
      rw [TrafficState.misread_eq_zero hpc, Int.add_zero] at hdrift
      -- the step is the `Add`, or one of the rovers before it
      have hpc' : t.pc.broadcasting = none := by
        cases a with
        | source read ord => exact TrafficState.source_broadcasting hset₀ ht
        | rover a =>
          obtain ⟨-, ht⟩ := Option.ite_none_left_eq_some.mp ht
          obtain ⟨r, -, rfl⟩ := Option.map_eq_some_iff.mp ht
          exact hpc
      obtain ⟨as', u, hpre, hu, hrest⟩ :=
        ih (TrafficState.step_publishing hpub ht) hpc' (hdrift ▸ hoff) hrun
      refine ⟨a :: as', u, List.cons_prefix_cons.mpr ⟨rfl, hpre⟩, ?_, hrest⟩
      exact Option.bind_eq_some_iff.mpr ⟨t, ht, hu⟩

/-- A run that is exact whenever no packet is under way meets the condition. -/
theorem run_balanced_of_exact (hpub : Publishing m s₀.rovers s₀.pc) (hzero : s₀.drift m = 0)
    (hrun : (trafficSystem maxClients m info).run s₀ as = some s) (hset : s.pc.settled = true)
    (hexact : ∀ as' t, as' <+: as → (trafficSystem maxClients m info).run s₀ as' = some t →
      t.pc.settled = true → t.Exact m) :
    ((trafficSystem maxClients m info).restrict fun s a => Balanced m s a = true).run s₀ as =
      some s := by
  induction as generalizing s₀ with
  | nil => exact hrun
  | cons a as ih =>
    obtain ⟨t, ht, hrun⟩ := Option.bind_eq_some_iff.mp hrun
    have hdrift := TrafficState.drift_step hpub ht
    rw [hzero, Int.zero_add] at hdrift
    have hpub' := TrafficState.step_publishing hpub ht
    have hexact' : ∀ as' u, as' <+: as → (trafficSystem maxClients m info).run t as' = some u →
        u.pc.settled = true → u.Exact m := fun as' u hpre hu =>
      hexact (a :: as') u (List.cons_prefix_cons.mpr ⟨rfl, hpre⟩)
        (Option.bind_eq_some_iff.mpr ⟨t, ht, hu⟩)
    by_cases hmis : s₀.misread m a = 0
    · refine Option.bind_eq_some_iff.mpr ⟨t, ?_, ih hpub' (hdrift.trans hmis) hrun hexact'⟩
      exact System.restrict_step_iff.mpr ⟨(TrafficState.misread_eq_zero_iff hpub).mp hmis, ht⟩
    · -- the step is a `Load`, and the packet is counted before the run ends
      have hpc' : t.pc.broadcasting = none := by
        cases a with
        | rover a => exact absurd rfl hmis
        | source read ord =>
          refine TrafficState.source_broadcasting ?_ ht
          cases hset₀ : s₀.pc.settled with
          | false => rfl
          | true =>
            refine absurd (TrafficState.misread_eq_zero ?_) hmis
            cases hpc : s₀.pc with
            | broadcast pkt todo =>
              rw [hpc] at hset₀
              cases hset₀
            | _ => rfl
      obtain ⟨as', u, hpre, hu, hset', hoff⟩ :=
        exists_settled_off hpub' hpc' (fun h => hmis (hdrift.symm.trans h)) hrun hset
      exact absurd ((TrafficState.exact_iff_drift hset').mp (hexact' as' u hpre hu hset')) hoff

theorem drift_init (h : (trafficSystem maxClients m info).init s₀) : s₀.drift m = 0 := by
  obtain ⟨⟨mounts, hfresh, hrovers⟩, -, -, hpc⟩ := h
  rw [TrafficState.drift, hrovers, hpc]
  cases hmt : mounts[m]? with
  | none => rfl
  | some mt =>
    obtain ⟨_, _, _, _, _, _, rfl⟩ := hfresh mt (List.mem_of_getElem? hmt)
    rfl

/-- In a run that meets the condition the count is not off. -/
theorem drift_balanced (h : ((trafficSystem maxClients m info).restrict
    fun s a => Balanced m s a = true).Reachable s) : s.drift m = 0 := by
  refine h.restrict_invariant (I := fun s => s.drift m = 0) (fun _ => drift_init) ?_
  intro s a s' hs hzero hbal hstep
  have hpub := trafficSystem_publishing hs
  rw [TrafficState.drift_step hpub hstep, hzero, (TrafficState.misread_eq_zero_iff hpub).mpr hbal,
    Int.add_zero]

end Runs

/-- **Outbound traffic.** In every run of a source session in which, at each count, the clients that
missed the packet are as many as those that took it and left, `BytesOut` is the sum over the packets
broadcast of their lengths times the clients whose `WriteChan` accepted them, whenever no packet is
between its `Broadcast` and the end of its `addBytesOut`. And a run that ends at such a point and
has this property meets the condition at every count. -/
theorem bytesOut_exact_iff {maxClients : ℤ} {m : ℕ} {info : SourceInfo} {s₀ s : TrafficState}
    {as : List TrafficStep} (hinit : (trafficSystem maxClients m info).init s₀)
    (hrun : (trafficSystem maxClients m info).run s₀ as = some s) :
    let balanced := ((trafficSystem maxClients m info).restrict
      fun s a => Balanced m s a = true).run s₀ as = some s
    let exact := ∀ as' t, as' <+: as → (trafficSystem maxClients m info).run s₀ as' = some t →
      t.pc.settled = true → t.Exact m
    (balanced → exact) ∧ (s.pc.settled = true → exact → balanced) := by
  intro balanced exact
  constructor
  · intro hbal as' t hpre ht hset
    have hrun' := System.run_restrict_prefix hbal hpre ht
    exact (TrafficState.exact_iff_drift hset).mpr (drift_balanced (.of_run as' hinit hrun'))
  · intro hset hexact
    have hpub := trafficSystem_publishing (.init hinit)
    exact run_balanced_of_exact hpub (drift_init hinit) hrun hset hexact

/-- A server with one mountpoint, before its source connects. -/
def beforeSource : TrafficState := ⟨oneMount 8, {}, 0, .setSource⟩

/-- A source connects, a rover joins, `between` happens, and the source sends an empty frame. -/
def sendsFrame (between : List RoverStep) : List TrafficStep :=
  let next : TrafficStep := .source none .stored
  let frame : Bytes := [0xD3, 0x00, 0x00, 0x47, 0xEA, 0x4B]
  next :: .rover (.connect 0 (ascii "a") 0) ::
    List.replicate 6 (.rover (.handler 0 .stored .ok)) ++
  between.map .rover ++ [.source (some frame) .stored, next]

/-- The rover takes it, and the packet is counted. -/
def takesFrame : List TrafficStep :=
  sendsFrame [] ++ List.replicate 3 (.rover (.deliver 0 .writeChan)) ++
    List.replicate 2 (.source none .stored)

/-- The rover's connection has failed: it is passed over and counted. -/
def missesFrame : List TrafficStep :=
  sendsFrame [.watch 0] ++ List.replicate 2 (.rover (.deliver 0 .writeChan)) ++
    List.replicate 2 (.source none .stored)

theorem bytesOut_exact_iff_takesFrame :
    ∃ s mt, (trafficSystem 8 0 ⟨0, ascii "s", 7⟩).run beforeSource takesFrame = some s ∧
      s.rovers.mounts[0]? = some mt ∧ mt.point.stats.bytesOut = 6 ∧
      let balanced := ((trafficSystem 8 0 ⟨0, ascii "s", 7⟩).restrict
        fun s a => Balanced 0 s a = true).run beforeSource takesFrame = some s
      let exact := ∀ as' t, as' <+: takesFrame →
        (trafficSystem 8 0 ⟨0, ascii "s", 7⟩).run beforeSource as' = some t →
        t.pc.settled = true → t.Exact 0
      (balanced → exact) ∧ (s.pc.settled = true → exact → balanced) := by
  have hinit : (trafficSystem 8 0 ⟨0, ascii "s", 7⟩).init beforeSource :=
    ⟨oneMount_init 8, rfl, rfl, rfl⟩
  obtain ⟨s, mt, hrun, hmt, hbytes⟩ : ∃ s mt,
      (trafficSystem 8 0 ⟨0, ascii "s", 7⟩).run beforeSource takesFrame = some s ∧
        s.rovers.mounts[0]? = some mt ∧ mt.point.stats.bytesOut = 6 := ⟨_, _, rfl, rfl, rfl⟩
  exact ⟨s, mt, hrun, hmt, hbytes, bytesOut_exact_iff hinit hrun⟩

/-- Nobody accepts the frame of six bytes, and six bytes are counted. -/
theorem bytesOut_not_exact :
    ¬ ∀ (maxClients : ℤ) (m : ℕ) (info : SourceInfo) (s₀ s : TrafficState) (as : List TrafficStep),
      (trafficSystem maxClients m info).init s₀ →
      (trafficSystem maxClients m info).run s₀ as = some s → s.pc.settled = true → s.Exact m := by
  intro hall
  obtain ⟨s, mt, hrun, hset, hmt, hbytes, hacc⟩ : ∃ s mt,
      (trafficSystem 8 0 ⟨0, ascii "s", 7⟩).run beforeSource missesFrame = some s ∧
        s.pc.settled = true ∧ s.rovers.mounts[0]? = some mt ∧ mt.point.stats.bytesOut = 6 ∧
        acceptedBytes mt.log (takers s.rovers.sessions 0) = 0 := ⟨_, _, rfl, rfl, rfl, rfl, rfl⟩
  have hexact := hall 8 0 _ _ s missesFrame ⟨oneMount_init 8, rfl, rfl, rfl⟩ hrun hset mt hmt
  rw [hbytes, hacc] at hexact
  cases hexact

end NtripCaster
