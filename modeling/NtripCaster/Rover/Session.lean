import Mathlib.Tactic.Common
import NtripCaster.Mountpoint.MountPoint
import NtripCaster.Rtcm.Framer

/-!
# Rover sessions

One rover connection with the goroutines that work on it: the handler (`handleRover` of
`internal/caster/connection.go`), the write loop and the goroutine that watches the read side
(`Client.WriteLoop` of `internal/client/client.go`). Every step here is one of theirs, or the
effect on the session of a step of another goroutine.

## Main definitions

* `RoverPC`, `MonitorPC`, `CloseState`: where the goroutines of a session stand
* `Session`: the state of one rover connection
* `Session.kick`, `Session.closeConn`: `KickSlowConsumer`, in two steps
* `Session.connWrite`: a write to the connection
* `Session.writeLoop`, `Session.watch`: the steps of the write loop and of the read side
* `Session.trySend`: the send case of the `select` in `Broadcast`

## Main results

* `Session.Delivered`: what is on the wire, in flight and queued is what was accepted
* `Session.Moves`: what every step of a session's own goroutines keeps
-/

namespace NtripCaster

/-- The next step of a rover connection: the checks of `handleRover` after authentication, the
registration, the response, the `select` of the write loop with what follows each case, the two
deferred calls. A `rejected` connection has been closed by the handler. -/
inductive RoverPC
  | isEnabled
  | hasSource
  | atCapacity
  | addClient
  | add
  | respond
  | select
  | write (pkt : RTCMPacket)
  | kick
  | removeClient
  | release
  | finished
  | rejected
  deriving DecidableEq, Repr

namespace RoverPC

/-- `AddClient` has accepted the client. -/
def admitted : RoverPC → Bool
  | isEnabled | hasSource | atCapacity | addClient | rejected => false
  | _ => true

/-- `AddClient` has accepted the client, and `RemoveClient` is still to come. -/
def registered : RoverPC → Bool
  | add | respond | select | write _ | kick | removeClient => true
  | _ => false

/-- The handler has not written to the connection. -/
def unwritten : RoverPC → Bool
  | isEnabled | hasSource | atCapacity | addClient | add | respond => true
  | _ => false

/-- The write loop may still write. -/
def running : RoverPC → Bool
  | select | write _ => true
  | _ => false

/-- The packet that the write loop has received and not yet written. -/
def inFlight : RoverPC → List RTCMPacket
  | write pkt => [pkt]
  | _ => []

/-- The client is counted by the global limiter. -/
def counted : RoverPC → Bool
  | respond | select | write _ | kick | removeClient | release => true
  | _ => false

theorem admitted_of_registered {pc : RoverPC} (h : pc.registered = true) : pc.admitted = true := by
  cases pc <;> first | rfl | cases h

/-- A client that is not admitted is not registered, not counted and not written to. -/
theorem of_not_admitted {pc : RoverPC} (h : pc.admitted = false) :
    pc.registered = false ∧ pc.counted = false ∧ pc.running = false := by
  cases pc <;> first | exact ⟨rfl, rfl, rfl⟩ | cases h

end RoverPC

/-- The goroutine that reads from the connection: not started, in `Read`, in `KickSlowConsumer`
after a read error, or past `close(readDone)`. -/
inductive MonitorPC
  | idle
  | reading
  | kick
  | readDone
  deriving DecidableEq, Repr

/-- `CloseOnce`: not run, `Done` closed, or `Done` and the connection closed. A second caller of
`Do` waits for the last. -/
inductive CloseState
  | notRun
  | doneClosed
  | connClosed
  deriving DecidableEq, Repr

/-- How a write to the connection ends: all bytes written, or an error after some of them. -/
inductive WriteResult
  | ok
  | fails (n : ℕ)
  deriving DecidableEq, Repr

/-- The cases of the `select` in `WriteLoop`. -/
inductive LoopCase
  | done
  | readDone
  | writeChan
  deriving DecidableEq, Repr

/-- A rover connection: its place in `handleRover` and `WriteLoop`, its `Client` object, and what it
has been sent. -/
structure Session where
  mount : ℕ
  client : Client
  pc : RoverPC
  monitor : MonitorPC
  closeOnce : CloseState
  slow : Bool
  writeChan : List RTCMPacket
  /-- A write has failed: all later ones do. -/
  broken : Bool
  /-- The bytes written to the rover. -/
  wire : Bytes
  bytesOut : ℤ
  /-- The packets accepted into `writeChan` so far, with the numbers of their broadcasts. -/
  accepted : List (ℕ × RTCMPacket)
  deriving DecidableEq, Repr

/-- A connection whose handler has just authenticated it. The ID is drawn by `client.New`, which
also reads the capacity of `WriteChan` and the write timeout from the mountpoint. -/
def newSession (ref mount : ℕ) (id : Bytes) (userID : ℤ) : Session where
  mount := mount
  client := ⟨ref, id, userID, 0, 0⟩
  pc := .isEnabled
  monitor := .idle
  closeOnce := .notRun
  slow := false
  writeChan := []
  broken := false
  wire := []
  bytesOut := 0
  accepted := []

/-- `ICY 200 OK` and an empty line. -/
def icyOK : Bytes := ascii "ICY 200 OK\r\n\r\n"

namespace Session

variable (x : Session)

/-- `Done` is closed. -/
def isDone : Bool := x.closeOnce != .notRun

/-- `KickSlowConsumer` up to `close(c.Done)`: the first caller closes `Done`. -/
def kick : Session := if x.closeOnce = .notRun then { x with closeOnce := .doneClosed } else x

/-- The rest of `KickSlowConsumer`: the caller that closed `Done` closes the connection. -/
def closeConn : Option Session :=
  if x.closeOnce = .doneClosed then some { x with closeOnce := .connClosed } else none

/-- The connection still takes writes. -/
def writable : Bool := !x.broken && x.closeOnce != .connClosed

/-- `Conn.Write`: the session and whether there was no error. A write to a connection that is
closed or broken fails at once. -/
def connWrite (b : Bytes) : WriteResult → Option (Session × Bool)
  | .ok => if x.writable then some ({ x with wire := x.wire ++ b }, true) else none
  | .fails n =>
    if x.writable then some ({ x with wire := x.wire ++ b.take n, broken := true }, false)
    else some (x, false)

/-- `writeResponse` and `conn.Close` of a handler that refuses the connection. -/
def reject (response : Bytes) (r : WriteResult) : Option Session :=
  (x.connWrite response r).map fun (x, _) => { x with pc := .rejected }

/-- `writeResponse` of a handler that accepts, and the start of `WriteLoop`. -/
def respond (r : WriteResult) : Option Session :=
  (x.connWrite icyOK r).map fun (x, _) => { x with pc := .select, monitor := .reading }

/-- A step of the goroutine that watches the read side: any `Read` may fail. -/
def watch : Option Session :=
  match x.monitor with
  | .reading => some { x.kick with monitor := .kick }
  | .kick => if x.closeOnce = .connClosed then some { x with monitor := .readDone } else none
  | _ => none

/-- A step of `WriteLoop`, up to its deferred calls. -/
def writeLoop (case : LoopCase) (r : WriteResult) : Option Session :=
  match x.pc, case with
  | .select, .done => if x.isDone then some { x with pc := .removeClient } else none
  | .select, .readDone =>
    if x.monitor = .readDone then some { x with pc := .removeClient } else none
  | .select, .writeChan =>
    match x.writeChan with
    | [] => none
    | pkt :: rest => some { x with pc := .write pkt, writeChan := rest }
  | .write pkt, _ =>
    -- an error leads to `KickSlowConsumer` and the deferred calls
    (x.connWrite pkt.data r).map fun (x, ok) =>
      if ok then { x with pc := .select, bytesOut := x.bytesOut + pkt.data.length }
      else { x.kick with pc := .kick }
  | .kick, _ => if x.closeOnce = .connClosed then some { x with pc := .removeClient } else none
  | _, _ => none

/-- `c.WriteChan <- pkt` where it does not block: into the buffer, or without one to a write loop
that waits in its `select`. `n` is the number of the broadcast. -/
def trySend (n : ℕ) (pkt : RTCMPacket) : Option Session :=
  if x.writeChan.length < x.client.queueSize then
    some { x with writeChan := x.writeChan ++ [pkt], accepted := x.accepted ++ [(n, pkt)] }
  else if x.client.queueSize = 0 ∧ x.pc = .select then
    some { x with pc := .write pkt, accepted := x.accepted ++ [(n, pkt)] }
  else none

/-- The `default` case of the `select` in `Broadcast` can be taken: `Done` is open and the buffer
full. Without a buffer the write loop may not be waiting yet. -/
def refuses : Bool := !x.isDone && decide (x.client.queueSize ≤ x.writeChan.length)

/-! ## What is on the wire -/

/-- The bytes of packets written one after the other. -/
def bytesOf (pkts : List RTCMPacket) : Bytes := pkts.flatMap RTCMPacket.data

@[simp] theorem bytesOf_append (l l' : List RTCMPacket) :
    bytesOf (l ++ l') = bytesOf l ++ bytesOf l' := List.flatMap_append

@[simp] theorem bytesOf_singleton (pkt : RTCMPacket) : bytesOf [pkt] = pkt.data :=
  List.flatMap_singleton _ _

/-- The packets accepted so far. -/
def packets : List RTCMPacket := x.accepted.map Prod.snd

/-- What was accepted is, in order, written, in flight or queued; and the wire holds the response
and a prefix of it. -/
structure Delivered : Prop where
  fresh : x.pc.admitted = false → x.accepted = [] ∧ x.slow = false
  unwritten : x.pc.unwritten = true →
    x.wire = [] ∧ x.broken = false ∧ x.packets = x.writeChan
  running : x.pc.running = true → ∃ w, x.packets = w ++ x.pc.inFlight ++ x.writeChan ∧
    (x.writable = true → x.wire = icyOK ++ bytesOf w)
  on_wire : x.pc.admitted = true → x.wire <+: icyOK ++ bytesOf x.packets
  bounded : x.writeChan.length ≤ x.client.queueSize

/-- What a step of a session's own goroutines keeps. Registration, the counter and the packets
accepted change in other steps only. -/
structure Moves (x x' : Session) : Prop where
  mount : x'.mount = x.mount
  client : x'.client = x.client
  accepted : x'.accepted = x.accepted
  slow : x'.slow = x.slow
  isDone : x.isDone = true → x'.isDone = true
  admitted : x'.pc.admitted = x.pc.admitted
  registered : x'.pc.registered = x.pc.registered
  counted : x'.pc.counted = x.pc.counted
  delivered : x.Delivered → x'.Delivered

variable {x}

theorem newSession_delivered (ref mount : ℕ) (id : Bytes) (userID : ℤ) :
    (newSession ref mount id userID).Delivered where
  fresh _ := ⟨rfl, rfl⟩
  unwritten _ := ⟨rfl, rfl, rfl⟩
  running h := by cases h
  on_wire h := by cases h
  bounded := Nat.le_refl 0

/-- A step that touches nothing but `CloseOnce`. -/
theorem Moves.setCloseOnce {c : CloseState} (hc : x.isDone = true → c ≠ .notRun)
    (hw : x.closeOnce = .connClosed → c = .connClosed) : x.Moves { x with closeOnce := c } where
  mount := rfl
  client := rfl
  accepted := rfl
  slow := rfl
  isDone h := bne_iff_ne.mpr (hc h)
  admitted := rfl
  registered := rfl
  counted := rfl
  delivered h := by
    refine ⟨h.fresh, h.unwritten, fun hrun => ?_, h.on_wire, h.bounded⟩
    obtain ⟨w, hacc, hwire⟩ := h.running hrun
    refine ⟨w, hacc, fun hwr => hwire ?_⟩
    -- the connection took writes before, since closing is for good
    obtain ⟨hb, hcl⟩ := Bool.and_eq_true_iff.mp hwr
    exact Bool.and_eq_true_iff.mpr ⟨hb, bne_iff_ne.mpr fun hx => bne_iff_ne.mp hcl (hw hx)⟩

/-- A step of a goroutine to the next point of the same stage: registration and counter are where
they were. -/
theorem Moves.of_pc {x' : Session} {pc pc' : RoverPC} (hpc : x.pc = pc) (hpc' : x'.pc = pc')
    (hkeep : x'.mount = x.mount ∧ x'.client = x.client ∧ x'.accepted = x.accepted ∧
      x'.slow = x.slow ∧ x'.closeOnce = x.closeOnce)
    (hstage : pc'.admitted = pc.admitted ∧ pc'.registered = pc.registered ∧
      pc'.counted = pc.counted) (hd : x.Delivered → x'.Delivered) : x.Moves x' := by
  subst hpc hpc'
  obtain ⟨hmount, hclient, hacc, hslow, hclose⟩ := hkeep
  refine ⟨hmount, hclient, hacc, hslow, fun hdone => ?_, hstage.1, hstage.2.1, hstage.2.2, hd⟩
  show (x'.closeOnce != .notRun) = true
  rw [hclose]
  exact hdone

theorem moves_kick : x.Moves x.kick := by
  unfold kick
  split
  next h => exact .setCloseOnce (by simp) (by simp [h])
  next => exact .setCloseOnce (fun h => bne_iff_ne.mp h) id

theorem moves_closeConn {x' : Session} (h : x.closeConn = some x') : x.Moves x' := by
  obtain ⟨-, h⟩ := Option.ite_none_right_eq_some.mp h
  exact Option.some.inj h ▸ .setCloseOnce (by simp) fun _ => rfl

/-- A write puts a prefix of the bytes on the wire: all of them, or the connection takes no
further writes. -/
theorem connWrite_eq_some {b : Bytes} {r : WriteResult} {x' : Session} {ok : Bool}
    (h : x.connWrite b r = some (x', ok)) : ∃ sent broken,
      x' = { x with wire := x.wire ++ sent, broken := broken } ∧ sent <+: b ∧
        (sent ≠ [] → x.writable = true) ∧ (ok = true → sent = b ∧ x.writable = true) ∧
        (ok = false → x'.writable = false) := by
  cases r with
  | ok =>
    obtain ⟨hw, h⟩ := Option.ite_none_right_eq_some.mp h
    cases h
    exact ⟨b, x.broken, rfl, List.prefix_rfl, fun _ => hw, fun _ => ⟨rfl, hw⟩, nofun⟩
  | fails n =>
    simp only [connWrite] at h
    split at h
    next hw =>
      cases h
      exact ⟨b.take n, true, rfl, List.take_prefix n b, fun _ => hw, nofun, fun _ => rfl⟩
    next hw =>
      cases h
      refine ⟨[], x.broken, by simp, List.nil_prefix, fun h => absurd rfl h, nofun, ?_⟩
      exact fun _ => Bool.eq_false_iff.mpr hw

/-- The handler refuses a connection that is not registered. -/
theorem moves_reject {response : Bytes} {r : WriteResult} {x' : Session}
    (hpc : x.pc.admitted = false) (h : x.reject response r = some x') : x.Moves x' := by
  obtain ⟨⟨y, ok⟩, hw, rfl⟩ := Option.map_eq_some_iff.mp h
  obtain ⟨sent, broken, rfl, -⟩ := connWrite_eq_some hw
  obtain ⟨hreg, hcount, -⟩ := RoverPC.of_not_admitted hpc
  refine ⟨rfl, rfl, rfl, rfl, id, hpc.symm, hreg.symm, hcount.symm, fun hd => ?_⟩
  exact ⟨fun _ => hd.fresh hpc, nofun, nofun, nofun, hd.bounded⟩

/-- A handler that has not written moves on to its next check. -/
theorem moves_check {pc : RoverPC} (hpc : x.pc.admitted = false) (hun : x.pc.unwritten = true)
    (hpc' : pc.admitted = false) : x.Moves { x with pc := pc } := by
  obtain ⟨hreg, hcount, -⟩ := RoverPC.of_not_admitted hpc
  obtain ⟨hreg', hcount', hrun'⟩ := RoverPC.of_not_admitted hpc'
  refine ⟨rfl, rfl, rfl, rfl, id, hpc'.trans hpc.symm, hreg'.trans hreg.symm,
    hcount'.trans hcount.symm, fun hd => ?_⟩
  -- before and after, only the clauses on a handler that has not written say something
  refine ⟨fun _ => hd.fresh hpc, fun _ => hd.unwritten hun, fun h => ?_, fun h => ?_, hd.bounded⟩
  · rw [hrun'] at h
    cases h
  · rw [hpc'] at h
    cases h

/-- The response is written, in full if the connection still takes writes afterwards. -/
theorem moves_respond {r : WriteResult} {x' : Session} (hpc : x.pc = .respond)
    (h : x.respond r = some x') : x.Moves x' := by
  obtain ⟨⟨y, ok⟩, hw, rfl⟩ := Option.map_eq_some_iff.mp h
  obtain ⟨sent, broken, rfl, hsent, -, hok, hfail⟩ := connWrite_eq_some hw
  refine .of_pc hpc rfl ⟨rfl, rfl, rfl, rfl, rfl⟩ ⟨rfl, rfl, rfl⟩ fun hd => ?_
  obtain ⟨hwire, -, hqueue⟩ := hd.unwritten (by rw [hpc]; rfl)
  refine ⟨nofun, nofun, fun _ => ⟨[], hqueue, fun hwr => ?_⟩, fun _ => ?_, hd.bounded⟩
  · -- a connection that still takes writes has taken the whole response
    cases ok with
    | true => simp [hwire, (hok rfl).1, bytesOf]
    | false => exact absurd hwr (by simpa [writable] using hfail rfl)
  · show x.wire ++ sent <+: _
    rw [hwire, List.nil_append]
    exact hsent.trans (List.prefix_append _ _)

theorem moves_watch {x' : Session} (h : x.watch = some x') : x.Moves x' := by
  unfold watch at h
  split at h
  · cases h
    obtain ⟨h₁, h₂, h₃, h₄, h₅, h₆, h₇, h₈, hd⟩ := x.moves_kick
    refine ⟨h₁, h₂, h₃, h₄, h₅, h₆, h₇, h₈, fun hx => ?_⟩
    have hk := hd hx
    exact ⟨hk.fresh, hk.unwritten, hk.running, hk.on_wire, hk.bounded⟩
  · obtain ⟨-, h⟩ := Option.ite_none_right_eq_some.mp h
    cases h
    exact ⟨rfl, rfl, rfl, rfl, id, rfl, rfl, rfl, fun hx =>
      ⟨hx.fresh, hx.unwritten, hx.running, hx.on_wire, hx.bounded⟩⟩
  · cases h

/-- The deferred calls are next: nothing is written any more. -/
theorem moves_leave (hpc : x.pc.running = true ∨ x.pc = .kick) {pc : RoverPC}
    (hpc' : pc = .kick ∨ pc = .removeClient) : x.Moves { x with pc := pc } := by
  have hx : x.pc.admitted = true ∧ x.pc.registered = true ∧ x.pc.counted = true := by
    cases hc : x.pc <;> simp_all [RoverPC.running, RoverPC.admitted, RoverPC.registered,
      RoverPC.counted]
  have hy : pc.admitted = true ∧ pc.registered = true ∧ pc.counted = true ∧
      pc.unwritten = false ∧ pc.running = false := by
    rcases hpc' with rfl | rfl <;> exact ⟨rfl, rfl, rfl, rfl, rfl⟩
  refine ⟨rfl, rfl, rfl, rfl, id, ?_, ?_, ?_, fun hd => ⟨?_, ?_, ?_, ?_, hd.bounded⟩⟩
  · exact hy.1.trans hx.1.symm
  · exact hy.2.1.trans hx.2.1.symm
  · exact hy.2.2.1.trans hx.2.2.symm
  · -- nothing is claimed of these points but what is on the wire
    exact fun h => absurd (hy.1.symm.trans h) (by decide)
  · exact fun h => absurd (hy.2.2.2.1.symm.trans h) (by decide)
  · exact fun h => absurd (hy.2.2.2.2.symm.trans h) (by decide)
  · exact fun _ => hd.on_wire hx.1

theorem Moves.trans {x x' x'' : Session} (h : x.Moves x') (h' : x'.Moves x'') : x.Moves x'' where
  mount := h'.mount.trans h.mount
  client := h'.client.trans h.client
  accepted := h'.accepted.trans h.accepted
  slow := h'.slow.trans h.slow
  isDone := h'.isDone ∘ h.isDone
  admitted := h'.admitted.trans h.admitted
  registered := h'.registered.trans h.registered
  counted := h'.counted.trans h.counted
  delivered := h'.delivered ∘ h.delivered

/-- The write loop receives the first packet of its queue. -/
theorem moves_receive {pkt : RTCMPacket} {rest : List RTCMPacket} (hpc : x.pc = .select)
    (hq : x.writeChan = pkt :: rest) :
    x.Moves { x with pc := .write pkt, writeChan := rest } := by
  refine .of_pc hpc rfl ⟨rfl, rfl, rfl, rfl, rfl⟩ ⟨rfl, rfl, rfl⟩
    fun hd => ⟨nofun, nofun, fun _ => ?_, fun _ => ?_, ?_⟩
  · obtain ⟨w, hacc, hwire⟩ := hd.running (by rw [hpc]; rfl)
    refine ⟨w, ?_, hwire⟩
    rw [hpc, hq] at hacc
    simpa [packets, RoverPC.inFlight] using hacc
  · exact hd.on_wire (by rw [hpc]; rfl)
  · have hle := hd.bounded
    rw [hq] at hle
    exact Nat.le_of_succ_le hle

/-- A packet is written in full, or a prefix of it is the last thing on the wire. -/
theorem moves_write {pkt : RTCMPacket} {r : WriteResult} {y : Session} {ok : Bool}
    (hpc : x.pc = .write pkt) (h : x.connWrite pkt.data r = some (y, ok)) :
    x.Moves (if ok then { y with pc := .select, bytesOut := y.bytesOut + pkt.data.length }
      else { y.kick with pc := .kick }) := by
  obtain ⟨sent, broken, rfl, hsent, hwr, hok, hfail⟩ := connWrite_eq_some h
  have hrun : x.pc.running = true := by rw [hpc]; rfl
  -- whatever was sent extends the packets already on the wire
  have hprefix : x.Delivered → x.wire ++ sent <+: icyOK ++ bytesOf x.packets := by
    intro hd
    obtain ⟨w, hacc, hwire⟩ := hd.running hrun
    by_cases hnil : sent = []
    · -- nothing was sent: the connection may have been broken for long
      rw [hnil, List.append_nil]
      exact hd.on_wire (by rw [hpc]; rfl)
    · rw [hwire (hwr hnil), hacc, hpc]
      simp only [RoverPC.inFlight, bytesOf_append, bytesOf_singleton, List.append_assoc]
      rw [List.prefix_append_right_inj, List.prefix_append_right_inj]
      exact hsent.trans (List.prefix_append _ _)
  cases ok with
  | true =>
    obtain ⟨rfl, hwritable⟩ := hok rfl
    rw [if_pos rfl]
    refine .of_pc hpc rfl ⟨rfl, rfl, rfl, rfl, rfl⟩ ⟨rfl, rfl, rfl⟩
      fun hd => ⟨nofun, nofun, fun _ => ?_, fun _ => ?_, hd.bounded⟩
    · obtain ⟨w, hacc, hwire⟩ := hd.running hrun
      refine ⟨w ++ [pkt], ?_, fun _ => ?_⟩
      · rw [hpc] at hacc
        simpa [packets, RoverPC.inFlight] using hacc
      · show x.wire ++ pkt.data = _
        rw [hwire hwritable, bytesOf_append, bytesOf_singleton, List.append_assoc]
    · exact hprefix hd
  | false =>
    rw [if_neg (by decide)]
    -- the write, and then the kick
    have hwrite : x.Moves { x with pc := .kick, wire := x.wire ++ sent, broken := broken } :=
      .of_pc hpc rfl ⟨rfl, rfl, rfl, rfl, rfl⟩ ⟨rfl, rfl, rfl⟩
        fun hd => ⟨nofun, nofun, nofun, fun _ => hprefix hd, hd.bounded⟩
    have hkick := hwrite.trans (moves_kick (x := { x with
      pc := .kick, wire := x.wire ++ sent, broken := broken }))
    convert hkick using 1
    unfold kick
    split <;> rfl

/-- Case by case of the `select`, and the step after each. -/
theorem moves_writeLoop {case : LoopCase} {r : WriteResult} {x' : Session}
    (h : x.writeLoop case r = some x') : x.Moves x' := by
  unfold writeLoop at h
  split at h
  next hpc =>
    obtain ⟨-, h⟩ := Option.ite_none_right_eq_some.mp h
    exact Option.some.inj h ▸ moves_leave (.inl (by rw [hpc]; rfl)) (.inr rfl)
  next hpc =>
    obtain ⟨-, h⟩ := Option.ite_none_right_eq_some.mp h
    exact Option.some.inj h ▸ moves_leave (.inl (by rw [hpc]; rfl)) (.inr rfl)
  next hpc =>
    split at h
    · cases h
    next hq => exact Option.some.inj h ▸ moves_receive hpc hq
  next hpc =>
    obtain ⟨⟨y, ok⟩, hw, rfl⟩ := Option.map_eq_some_iff.mp h
    exact moves_write hpc hw
  next hpc =>
    obtain ⟨-, h⟩ := Option.ite_none_right_eq_some.mp h
    exact Option.some.inj h ▸ moves_leave (.inr hpc) (.inr rfl)
  next => cases h

/-! ## Accepting a packet -/

/-- What accepting the packet of broadcast `n` does to a session. -/
structure Accepts (n : ℕ) (pkt : RTCMPacket) (x x' : Session) : Prop where
  mount : x'.mount = x.mount
  client : x'.client = x.client
  accepted : x'.accepted = x.accepted ++ [(n, pkt)]
  slow : x'.slow = x.slow
  isDone : x'.isDone = x.isDone
  admitted : x'.pc.admitted = x.pc.admitted
  registered : x'.pc.registered = x.pc.registered
  counted : x'.pc.counted = x.pc.counted
  delivered : x.pc.admitted = true → x.Delivered → x'.Delivered

/-- The queue has room: the packet goes to its end, and the session stays where it is otherwise. -/
theorem trySend_accepts {n : ℕ} {pkt : RTCMPacket} {x' : Session}
    (h : x.trySend n pkt = some x') : Accepts n pkt x x' := by
  unfold trySend at h
  split at h
  next hroom =>
    cases h
    refine ⟨rfl, rfl, rfl, rfl, rfl, rfl, rfl, rfl, fun had hd => ⟨?_, ?_, ?_, ?_, ?_⟩⟩
    · exact fun hf => absurd (had.symm.trans hf) (by decide)
    · intro hun
      obtain ⟨hwire, hb, hq⟩ := hd.unwritten hun
      refine ⟨hwire, hb, ?_⟩
      simp only [packets] at hq
      simp [packets, hq]
    · intro hrun
      obtain ⟨w, hacc, hwire⟩ := hd.running hrun
      refine ⟨w, ?_, hwire⟩
      simp only [packets] at hacc
      simp [packets, hacc]
    · intro _
      refine (hd.on_wire had).trans ?_
      simp [packets]
    · simp only [List.length_append, List.length_singleton]
      omega
  next hfull =>
    obtain ⟨⟨hzero, hpc⟩, h⟩ := Option.ite_none_right_eq_some.mp h
    cases h
    refine ⟨rfl, rfl, rfl, rfl, rfl, ?_, ?_, ?_,
      fun had hd => ⟨nofun, nofun, fun _ => ?_, fun _ => ?_, hd.bounded⟩⟩
    · rw [hpc]
      rfl
    · rw [hpc]
      rfl
    · rw [hpc]
      rfl
    · obtain ⟨w, hacc, hwire⟩ := hd.running (by rw [hpc]; rfl)
      have hchan : x.writeChan = [] := List.eq_nil_of_length_eq_zero (by
        have := hd.bounded
        omega)
      refine ⟨w, ?_, hwire⟩
      rw [hpc, hchan] at hacc
      simp only [packets] at hacc
      simpa [packets, RoverPC.inFlight, hchan] using hacc
    · refine (hd.on_wire had).trans ?_
      simp [packets]

/-! ## Registration -/

/-- A client that is registered has written nothing and accepted nothing. -/
theorem Delivered.addClient (h : x.Delivered) (hpc : x.pc = .addClient) (c : Client) :
    Delivered { x with client := c, pc := .add } := by
  obtain ⟨hwire, hb, hq⟩ := h.unwritten (by rw [hpc]; rfl)
  have hacc := (h.fresh (by rw [hpc]; rfl)).1
  -- so the queue is empty
  have hchan : x.writeChan = [] := by
    rw [← hq, packets, hacc]
    rfl
  refine ⟨nofun, fun _ => ⟨hwire, hb, hq⟩, nofun, fun _ => ?_, ?_⟩
  · show x.wire <+: _
    rw [hwire]
    exact List.nil_prefix
  · show x.writeChan.length ≤ _
    rw [hchan]
    exact Nat.zero_le _

/-- An admitted session goes to a step at which nothing has been written or nothing will be. -/
theorem Delivered.setPC (h : x.Delivered) (hadm : x.pc.admitted = true) {pc : RoverPC}
    (hadm' : pc.admitted = true) (hun : pc.unwritten = true → x.pc.unwritten = true)
    (hrun : pc.running = false) : Delivered { x with pc := pc } := by
  refine ⟨fun hf => ?_, fun hu => h.unwritten (hun hu), fun hr => ?_,
    fun _ => h.on_wire hadm, h.bounded⟩
  · exact absurd (hadm'.symm.trans hf) (by decide)
  · exact absurd (hr.symm.trans hrun) (by decide)

/-- The slow flag of an admitted session may be set. -/
theorem Delivered.setSlow (h : x.Delivered) (hadm : x.pc.admitted = true) :
    Delivered { x with slow := true } := by
  refine ⟨fun hf => ?_, h.unwritten, h.running, h.on_wire, h.bounded⟩
  exact absurd (hadm.symm.trans hf) (by decide)

end Session

end NtripCaster
