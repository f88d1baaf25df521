import Mathlib.Data.List.ReduceOption
import NtripCaster.Library.Transition
import NtripCaster.Mountpoint.Antenna
import NtripCaster.Rtcm.Layout1005
import NtripCaster.Rtcm.Reference
import NtripCaster.Source.ReadLoop

/-!
# The antenna position that base stations send

`Source.ReadLoop` hands the messages 1005 among its packets to `Decode1005`, and the position that
it gets to `UpdateAntennaPosition` of the mountpoint. Read loops of one mountpoint may overlap: one
whose session has lost the slot still goes through the packets of its last `Read`.

## Main definitions

* `foundPosition`: what the loop finds in a packet
* `PositionSession`, `PositionState`, `positionSystem`: read loops and their mountpoint
* `Transmission`: what a base station sends

## Main results

* `Transmission.foundPosition_packet`: what is found in a transmission is what the caster is told
* `PositionSession.Inv`, `PositionState.Inv`: the invariants
* `history_fresh`: how old the position of a mountpoint can be
* `positions_follow`: the position is that of a message of a base station, and nearly the newest
-/

namespace NtripCaster

open Framing Transition

/-- What the loop finds in a packet when the clock shows `now` seconds. -/
def foundPosition (now : ℤ) (pkt : RTCMPacket) : Except RuntimeError (Option AntennaPosition) := do
  let msgType ← extractMsgTypeRun pkt
  if msgType = 1005 then
    match ← decode1005 now pkt with
    | .ok pos => return some pos
    | .error _ => return none -- a warning is logged
  else return none

/-- Where a read loop stands: at the head of its loop; before the packets that it has still to go
through; before `UpdateAntennaPosition`; behind the loop; in a panic. -/
inductive PositionPC
  | read
  | packets (todo : List RTCMPacket)
  | update (pos : AntennaPosition) (todo : List RTCMPacket)
  | done
  | panicked

namespace PositionPC

/-- The packets still to be gone through. -/
@[simp] def todo : PositionPC → List RTCMPacket
  | packets todo | update _ todo => todo
  | _ => []

/-- The position still to be handed over. -/
@[simp] def pending : PositionPC → List AntennaPosition
  | update pos _ => [pos]
  | _ => []

end PositionPC

/-- The read loop of a source session, with the results of its `Read` calls so far, and the packets
that it has looked at with the clock readings. -/
structure PositionSession where
  framer : RTCMFramer := {}
  pc : PositionPC := .read
  reads : List Bytes := []
  handled : List (RTCMPacket × ℤ) := []

namespace PositionSession

variable (x : PositionSession)

/-- A `Read` returns `r`. -/
def read (r : Bytes) : Option PositionSession :=
  match x.pc with
  | .read =>
    if Readable readLoopSize r then
      some { x with
        framer := (x.framer.push r).1
        pc := .packets (x.framer.push r).2
        reads := x.reads ++ [r] }
    else none
  | _ => none

/-- The body of the loop over the packets, up to `UpdateAntennaPosition`. -/
def packet (now : ℤ) : Option PositionSession :=
  match x.pc with
  | .packets [] => some { x with pc := .read }
  | .packets (pkt :: todo) =>
    let pc : PositionPC := match foundPosition now pkt with
      | .ok none => .packets todo
      | .ok (some pos) => .update pos todo
      | .error _ => .panicked
    some { x with pc := pc, handled := x.handled ++ [(pkt, now)] }
  | _ => none

/-- The position is handed over. -/
def update : Option (AntennaPosition × PositionSession) :=
  match x.pc with
  | .update pos todo => some (pos, { x with pc := .packets todo })
  | _ => none

/-- `Done` is closed, or a `Read` fails. -/
def leave : Option PositionSession :=
  match x.pc with
  | .read => some { x with pc := .done }
  | _ => none

end PositionSession

/-- A call of `UpdateAntennaPosition` by the read loop of session `source`. -/
structure PositionCall where
  source : ℕ
  now : Int64
  pos : AntennaPosition

/-- The call, as the mountpoint sees it. -/
def PositionCall.call (c : PositionCall) : AntennaCall := ⟨c.now, some c.pos⟩

/-- A mountpoint's antenna position, the read loops of its source sessions, and the calls of
`UpdateAntennaPosition` so far, in the order in which they had the mutex. -/
structure PositionState where
  antenna : AntennaState
  sessions : List PositionSession
  calls : List PositionCall

/-- A session connects, reads, takes a packet, calls the mountpoint with a position, or leaves. -/
inductive PositionStep
  | connect
  | read (i : ℕ) (r : Bytes)
  | packet (i : ℕ) (now : ℤ)
  | update (i : ℕ) (now : Int64)
  | leave (i : ℕ)

namespace PositionState

variable (s : PositionState)

/-- A read loop makes its next step. -/
def step : PositionStep → Option PositionState
  | .connect => some { s with sessions := s.sessions ++ [{}] }
  | .read i r => (s.sessions[i]?).bind fun x =>
    (x.read r).map fun x' => { s with sessions := s.sessions.set i x' }
  | .packet i now => (s.sessions[i]?).bind fun x =>
    (x.packet now).map fun x' => { s with sessions := s.sessions.set i x' }
  | .update i now => (s.sessions[i]?).bind fun x =>
    x.update.map fun p =>
      { antenna := (s.antenna.updateAntennaPosition now (some p.1)).1
        sessions := s.sessions.set i p.2
        calls := s.calls ++ [⟨i, now, p.1⟩] }
  | .leave i => (s.sessions[i]?).bind fun x =>
    x.leave.map fun x' => { s with sessions := s.sessions.set i x' }

/-- The positions that session `i` has handed over. -/
def positionsOf (i : ℕ) : List AntennaPosition :=
  (s.calls.filter (·.source = i)).map PositionCall.pos

end PositionState

/-- The read loops of a mountpoint, from `NewMountPoint` on, any number of them at a time. -/
def positionSystem : System PositionState PositionStep where
  init s := s = ⟨{}, [], []⟩
  step := PositionState.step

/-! ## What base stations send -/

/-- A frame that a base station sends: with a message 1005, or with a message of another number or
one that is too short, even for a number. -/
structure Transmission where
  frame : Frame
  message : Option Message1005
  carries : ∀ m, message = some m → ∃ trailing, frame.payload = m.payload trailing
  silent : message = none → messageNumber frame.payload = 1005 → frame.payload.length < 19

/-- The position of a message, if its coordinates are those of a place near the surface. -/
def Message1005.position (now : ℤ) (m : Message1005) : Option AntennaPosition :=
  match ofCoordinates now (.ofInt m.x) (.ofInt m.y) (.ofInt m.z) with
  | .ok pos => some pos
  | .error _ => none

theorem decode1005_message {m : Message1005} {trailing : Bytes} {fr : Frame}
    (hfr : fr.payload = m.payload trailing) (now : ℤ) :
    decode1005 now ⟨fr.bytes⟩ = .ok (ofCoordinates now (.ofInt m.x) (.ofInt m.y) (.ofInt m.z)) := by
  have hx := m.readSigned38_payload trailing (show 34 + 38 ≤ 152 by omega) m.bits_x
  have hy := m.readSigned38_payload trailing (show 74 + 38 ≤ 152 by omega) m.bits_y
  have hz := m.readSigned38_payload trailing (show 114 + 38 ≤ 152 by omega) m.bits_z
  rw [decode1005_frame m hfr, decodePayload_eq now hx hy hz]

namespace Transmission

variable (t : Transmission)

/-- What the framer makes of it. -/
def packet : RTCMPacket := ⟨t.frame.bytes⟩

/-- What the caster is told about the antenna. -/
def position (now : ℤ) : Option AntennaPosition := t.message.bind (Message1005.position now)

theorem payloadLen_packet : payloadLen t.packet.data = t.frame.payload.length :=
  t.frame.payloadLen_bytes

theorem extractMsgType_packet (h : 2 ≤ t.frame.payload.length) :
    extractMsgType t.packet = messageNumber t.frame.payload := by
  have hlen : t.packet.data.length = 6 + payloadLen t.packet.data := t.frame.length_bytes
  rw [extractMsgType_eq_messageNumber hlen (by rwa [payloadLen_packet])]
  exact congrArg messageNumber t.frame.payload_bytes

/-- A message 1005 of fewer than 19 bytes is not decoded. -/
theorem decode1005_short (now : ℤ) (h : t.frame.payload.length < 19)
    (htype : extractMsgType t.packet = 1005) : ∃ e, decode1005 now t.packet = .ok (.error e) := by
  have hlen : t.packet.data.length = 6 + payloadLen t.packet.data := t.frame.length_bytes
  have hpay := t.payloadLen_packet
  unfold decode1005
  split_ifs with hshort
  · exact ⟨_, rfl⟩
  · rw [extractMsgTypeRun_eq, ok_bind, htype, if_neg (not_not.mpr rfl), index_of_lt (by omega),
      ok_bind, index_of_lt (by omega), ok_bind]
    refine ⟨.payloadTooShort (payloadLen t.packet.data), ?_⟩
    show (if payloadLen t.packet.data < 19 then _ else _) = _
    rw [if_pos (by omega)]
    rfl

/-- What the loop finds in a transmission is what the caster is told. -/
theorem foundPosition_packet (now : ℤ) : foundPosition now t.packet = .ok (t.position now) := by
  unfold foundPosition position
  rw [extractMsgTypeRun_eq, ok_bind]
  cases hm : t.message with
  | some m =>
    obtain ⟨trailing, hfr⟩ := t.carries m hm
    have hlen : 19 ≤ t.frame.payload.length := by
      rw [hfr, m.length_payload]
      omega
    have hdec : decode1005 now t.packet = _ := decode1005_message hfr now
    rw [t.extractMsgType_packet (by omega), hfr, m.messageNumber_payload, if_pos rfl, hdec, ok_bind,
      Option.bind_some, Message1005.position]
    generalize ofCoordinates now _ _ _ = r
    cases r <;> rfl
  | none =>
    split_ifs with htype
    · -- with fewer than two bytes, the number is one of bits of the checksum
      have hshort : t.frame.payload.length < 19 := by
        rcases Nat.lt_or_ge t.frame.payload.length 2 with h2 | h2
        · omega
        · exact t.silent hm (t.extractMsgType_packet h2 ▸ htype)
      obtain ⟨e, he⟩ := t.decode1005_short now hshort htype
      rw [he]
      rfl
    · rfl

end Transmission

/-! ## Read loops -/

theorem RTCMFramer.pushAll_concat (chunks : List Bytes) (f : RTCMFramer) (r : Bytes) :
    f.pushAll (chunks ++ [r]) =
      (((f.pushAll chunks).1.push r).1,
        (f.pushAll chunks).2 ++ ((f.pushAll chunks).1.push r).2) := by
  induction chunks generalizing f with
  | nil => simp [pushAll]
  | cons data chunks ih => simp [pushAll, ih]

/-- On a packet of a framer the loop does not panic. -/
theorem foundPosition_pushed {f : RTCMFramer} {chunks : List Bytes} {pkt : RTCMPacket}
    (h : pkt ∈ (f.pushAll chunks).2) (now : ℤ) : ∃ o, foundPosition now pkt = .ok o := by
  obtain ⟨r, hr, -⟩ := decode1005_of_frame now (RTCMFramer.mem_pushAll h).2
  unfold foundPosition
  rw [extractMsgTypeRun_eq, ok_bind]
  split_ifs
  · rw [hr, ok_bind]
    cases r with
    | error e => exact ⟨none, rfl⟩
    | ok pos => exact ⟨some pos, rfl⟩
  · exact ⟨none, rfl⟩

/-- The position found in a packet, if any. -/
def positionFound (e : RTCMPacket × ℤ) : Option AntennaPosition :=
  (foundPosition e.2 e.1).toOption.join

namespace PositionSession

variable {x x' : PositionSession} {sent : List AntennaPosition}

/-- The invariant of a session that has handed over the positions `sent`: the packets that it has
looked at and those to come are the framer's, and what it has found is handed over. -/
structure Inv (x : PositionSession) (sent : List AntennaPosition) : Prop where
  stream : RTCMFramer.pushAll {} x.reads = (x.framer, x.handled.map Prod.fst ++ x.pc.todo)
  found : sent ++ x.pc.pending = x.handled.filterMap positionFound
  running : x.pc ≠ .panicked

theorem Inv.new : Inv {} [] where
  stream := rfl
  found := rfl
  running h := by cases h

theorem Inv.read (h : x.Inv sent) {r : Bytes} (hread : x.read r = some x') : x'.Inv sent := by
  unfold PositionSession.read at hread
  split at hread
  next hpc =>
    obtain ⟨-, hread⟩ := Option.ite_none_right_eq_some.mp hread
    obtain rfl := Option.some.inj hread
    obtain ⟨hstream, hfound, -⟩ := h
    rw [hpc] at hstream hfound
    refine ⟨?_, hfound, fun h => by cases h⟩
    rw [RTCMFramer.pushAll_concat, hstream]
    simp
  next => cases hread

/-- The next packet is handled: the position found in it, if any, is the one to be sent next. -/
theorem Inv.packet (h : x.Inv sent) {now : ℤ} (hpacket : x.packet now = some x') :
    x'.Inv sent := by
  obtain ⟨hstream, hfound, -⟩ := h
  unfold PositionSession.packet at hpacket
  split at hpacket
  next hpc =>
    obtain rfl := Option.some.inj hpacket
    rw [hpc] at hstream hfound
    exact ⟨hstream, hfound, fun h => by cases h⟩
  next pkt todo hpc =>
    obtain rfl := Option.some.inj hpacket
    rw [hpc] at hstream hfound
    have hmem : pkt ∈ (RTCMFramer.pushAll {} x.reads).2 := by
      rw [hstream]
      simp
    obtain ⟨o, ho⟩ := foundPosition_pushed hmem now
    have hpkt : positionFound (pkt, now) = o := by
      rw [positionFound, ho]
      rfl
    replace hfound : sent = x.handled.filterMap positionFound := by simpa using hfound
    cases o with
    | none =>
      refine ⟨?_, ?_, fun h => ?_⟩
      · simpa [ho] using hstream
      · simpa [ho, hpkt] using hfound
      · simp [ho] at h
    | some pos =>
      refine ⟨?_, ?_, fun h => ?_⟩
      · simpa [ho] using hstream
      · simpa [ho, hpkt] using hfound
      · simp [ho] at h
  next => cases hpacket

theorem Inv.update (h : x.Inv sent) {pos : AntennaPosition} (hupdate : x.update = some (pos, x')) :
    x'.Inv (sent ++ [pos]) := by
  unfold PositionSession.update at hupdate
  split at hupdate
  next pos' todo hpc =>
    obtain ⟨rfl, rfl⟩ := Prod.mk.inj (Option.some.inj hupdate)
    obtain ⟨hstream, hfound, -⟩ := h
    rw [hpc] at hstream hfound
    refine ⟨hstream, ?_, fun h => by cases h⟩
    rw [← hfound]
    simp
  next => cases hupdate

theorem Inv.leave (h : x.Inv sent) (hleave : x.leave = some x') : x'.Inv sent := by
  unfold PositionSession.leave at hleave
  split at hleave
  next hpc =>
    obtain rfl := Option.some.inj hleave
    obtain ⟨hstream, hfound, -⟩ := h
    rw [hpc] at hstream hfound
    exact ⟨hstream, hfound, fun h => by cases h⟩
  next => cases hleave

end PositionSession

namespace PositionState

variable {s s' : PositionState}

/-- The invariant of a state: that of each session, and the mountpoint keeps what the calls have
left. -/
structure Inv (s : PositionState) : Prop where
  session : ∀ (i : ℕ) (x : PositionSession), s.sessions[i]? = some x → x.Inv (s.positionsOf i)
  known : ∀ c ∈ s.calls, c.source < s.sessions.length
  antenna : s.antenna = (history (s.calls.map PositionCall.call)).1

/-- A session that has not started has handed over nothing. -/
theorem Inv.positionsOf_new (h : s.Inv) {i : ℕ} (hi : s.sessions.length ≤ i) :
    s.positionsOf i = [] := by
  have hnone : s.calls.filter (·.source = i) = [] := by
    refine List.filter_eq_nil_iff.mpr fun c hc => ?_
    have := h.known c hc
    simp
    omega
  rw [positionsOf, hnone]
  rfl

/-- A session moves without a call. -/
theorem Inv.set (h : s.Inv) {i : ℕ} {x x' : PositionSession} (hx : s.sessions[i]? = some x)
    (hmove : x.Inv (s.positionsOf i) → x'.Inv (s.positionsOf i)) :
    Inv { s with sessions := s.sessions.set i x' } where
  session j y hy := by
    rcases getElem?_set_eq_some hy with ⟨rfl, rfl⟩ | ⟨-, hy⟩
    · exact hmove (h.session j x hx)
    · exact h.session j y hy
  known c hc := by
    rw [List.length_set]
    exact h.known c hc
  antenna := h.antenna

/-- One case for each step; only a call of the mountpoint adds to the record of calls. -/
theorem Inv.step {a : PositionStep} (h : s.Inv) (hs : s.step a = some s') : s'.Inv := by
  cases a with
  | connect =>
    obtain rfl := Option.some.inj hs
    refine ⟨fun j y hy => ?_, fun c hc => ?_, h.antenna⟩
    · rcases getElem?_snoc_eq_some hy with hy | ⟨rfl, rfl⟩
      · exact h.session j y hy
      · show PositionSession.Inv {} (s.positionsOf s.sessions.length)
        rw [h.positionsOf_new le_rfl]
        exact .new
    · rw [List.length_append]
      exact (h.known c hc).trans_le (Nat.le_add_right _ _)
  | read i r =>
    obtain ⟨x, hx, hs⟩ := Option.bind_eq_some_iff.mp hs
    obtain ⟨x', hread, rfl⟩ := Option.map_eq_some_iff.mp hs
    exact h.set hx fun hi => hi.read hread
  | packet i now =>
    obtain ⟨x, hx, hs⟩ := Option.bind_eq_some_iff.mp hs
    obtain ⟨x', hpacket, rfl⟩ := Option.map_eq_some_iff.mp hs
    exact h.set hx fun hi => hi.packet hpacket
  | update i now =>
    obtain ⟨x, hx, hs⟩ := Option.bind_eq_some_iff.mp hs
    obtain ⟨⟨pos, x'⟩, hupdate, rfl⟩ := Option.map_eq_some_iff.mp hs
    refine ⟨fun j y hy => ?_, fun c hc => ?_, ?_⟩
    · rw [positionsOf, List.filter_append, List.map_append]
      rcases getElem?_set_eq_some hy with ⟨rfl, rfl⟩ | ⟨hji, hy⟩
      · have hi := (h.session j x hx).update hupdate
        simpa [positionsOf] using hi
      · have hj := h.session j y hy
        simpa [positionsOf, Ne.symm hji] using hj
    · rw [List.length_set]
      rcases List.mem_append.mp hc with hc | hc
      · exact h.known c hc
      · obtain rfl := List.mem_singleton.mp hc
        exact (List.getElem?_eq_some_iff.mp hx).1
    · rw [List.map_append, List.map_singleton, history_concat, h.antenna]
      rfl
  | leave i =>
    obtain ⟨x, hx, hs⟩ := Option.bind_eq_some_iff.mp hs
    obtain ⟨x', hleave, rfl⟩ := Option.map_eq_some_iff.mp hs
    exact h.set hx fun hi => hi.leave hleave

end PositionState

theorem positionSystem_inv {s : PositionState} (h : positionSystem.Reachable s) : s.Inv := by
  refine h.invariant ?_ fun s a s' _ hi hs => hi.step hs
  rintro s rfl
  refine ⟨fun i x hx => ?_, fun c hc => ?_, rfl⟩
  · cases hx
  · cases hc

/-! ## What comes from a base station -/

/-- The positions found in packets that are transmissions. -/
theorem filterMap_positionFound {handled : List (RTCMPacket × ℤ)} {ts : List Transmission}
    (h : handled.map Prod.fst <+: ts.map Transmission.packet) :
    handled.filterMap positionFound =
      (List.zipWith Transmission.position ts (handled.map Prod.snd)).reduceOption := by
  induction handled generalizing ts with
  | nil => simp [List.reduceOption]
  | cons e handled ih =>
    obtain ⟨pkt, now⟩ := e
    cases ts with
    | nil => exact absurd (List.prefix_nil.mp h) (List.cons_ne_nil _ _)
    | cons t ts =>
      obtain ⟨rfl, hrest⟩ := List.cons_prefix_cons.mp h
      have hfound : positionFound (t.packet, now) = t.position now := by
        rw [positionFound, t.foundPosition_packet]
        rfl
      rw [List.filterMap_cons, hfound, ih hrest]
      cases hpos : t.position now with
      | none => simp [hpos]
      | some pos => simp [hpos]

/-- What a session has found in the stream of its base station: what its first transmissions say,
each at some time; and it has looked, or will before the next `Read`, at all that have arrived
completely. -/
theorem PositionSession.Inv.transmissions {x : PositionSession} {sent : List AntennaPosition}
    (h : x.Inv sent) {ts : List Transmission} {stream : Bytes}
    (hlay : rtcm3.Layout (ts.map fun t => t.packet.data) stream)
    (hreads : x.reads.flatten <+: stream) :
    ∃ times : List ℤ, times.length ≤ ts.length ∧
      sent ++ x.pc.pending = (List.zipWith Transmission.position ts times).reduceOption ∧
      ∀ k arrived, rtcm3.Layout ((ts.take k).map fun t => t.packet.data) arrived →
        arrived <+: x.reads.flatten → (ts.take k).length ≤ times.length + x.pc.todo.length := by
  have hparse := RTCMFramer.pushAll_parse x.reads
  rw [h.stream] at hparse
  -- the packets so far are the first transmissions
  have hfirst : (x.handled.map Prod.fst ++ x.pc.todo).map RTCMPacket.data <+:
      (ts.map Transmission.packet).map RTCMPacket.data := by
    have hpre := Format.parse_prefix RTCMFramer.framer hreads
    have hall : rtcm3.parse stream = (ts.map fun t => t.packet.data, []) := by
      have hpend := hlay.parse_pending (r := []) (.inl rfl)
      rwa [List.append_nil] at hpend
    rw [hparse, hall] at hpre
    rwa [List.map_map]
  have hpackets : x.handled.map Prod.fst ++ x.pc.todo <+: ts.map Transmission.packet := by
    rw [List.prefix_iff_eq_take, ← List.map_take, List.length_map] at hfirst
    rw [List.prefix_iff_eq_take]
    exact List.map_injective_iff.mpr RTCMPacket.data_injective hfirst
  have hhandled := (List.prefix_append _ _).trans hpackets
  refine ⟨x.handled.map Prod.snd, ?_, ?_, fun k arrived harrived hpre => ?_⟩
  · simpa using hhandled.length_le
  · rw [h.found, filterMap_positionFound hhandled]
  · have hle := (Format.parse_prefix RTCMFramer.framer hpre).length_le
    have hall : rtcm3.parse arrived = ((ts.take k).map fun t => t.packet.data, []) := by
      have hpend := harrived.parse_pending (r := []) (.inl rfl)
      rwa [List.append_nil] at hpend
    rw [hparse, hall] at hle
    simpa using hle

/-! ## What the mountpoint shows -/

/-- **How old the position can be**: the last accepted call is followed only by calls less than five
seconds later; and there is one as soon as there is any call. -/
theorem history_fresh {calls : List AntennaCall} (hpos : ∀ c ∈ calls, 0 < c.now) :
    (calls = [] ∧ (history calls).2.getLast? = none) ∨
      ∃ before a after, calls = before ++ a :: after ∧ (history calls).2.getLast? = some a ∧
        ∀ c ∈ after, c.now.toInt - a.now.toInt < 5 * 10 ^ 9 := by
  induction calls using List.reverseRecOn with
  | nil => exact .inl ⟨rfl, rfl⟩
  | append_singleton calls c ih =>
    have ⟨hpos, hc⟩ := List.forall_mem_append.mp hpos
    rcases history_concat_eq hpos (hc c (List.mem_singleton_self c)) with
      ⟨heq, a, ha, hlt⟩ | ⟨heq, -⟩
    · rcases ih hpos with ⟨-, hnone⟩ | ⟨before, a', after, rfl, ha', hafter⟩
      · rw [ha] at hnone
        cases hnone
      · obtain rfl := Option.some.inj (ha.symm.trans ha')
        refine .inr ⟨before, a, after ++ [c], by simp, heq ▸ ha, ?_⟩
        exact List.forall_mem_append.mpr ⟨hafter, List.forall_mem_singleton.mpr hlt⟩
    · refine .inr ⟨calls, c, [], rfl, ?_, by simp⟩
      rw [heq, List.getLast?_concat]

/-- What is known of a state: no loop has panicked; where a stream consists of transmissions with
garbage free of `D3` between them, what a session has handed over, and is about to, is what the
first transmissions of its base station say, each at some time, and beyond these only packets that
it has still to go through have arrived completely; the position of the mountpoint was handed over
less than five seconds before each that came after it, or there was none. -/
structure PositionState.Follows (s : PositionState) : Prop where
  running : ∀ x ∈ s.sessions, x.pc ≠ .panicked
  sources : ∀ (i : ℕ) (x : PositionSession), s.sessions[i]? = some x →
    ∀ (ts : List Transmission) (stream : Bytes),
      rtcm3.Layout (ts.map fun t => t.packet.data) stream → x.reads.flatten <+: stream →
      ∃ times : List ℤ, times.length ≤ ts.length ∧
        s.positionsOf i ++ x.pc.pending =
          (List.zipWith Transmission.position ts times).reduceOption ∧
        ∀ k arrived, rtcm3.Layout ((ts.take k).map fun t => t.packet.data) arrived →
          arrived <+: x.reads.flatten → (ts.take k).length ≤ times.length + x.pc.todo.length
  fresh : s.calls = [] ∧ s.antenna.getAntennaPosition = none ∨
    ∃ before c after, s.calls = before ++ c :: after ∧
      s.antenna.getAntennaPosition = some c.pos ∧
      ∀ d ∈ after, d.now.toInt - c.now.toInt < 5 * 10 ^ 9

/-- **The antenna position follows the base stations** in every reachable state, however the streams
are cut and the read loops overlap. -/
theorem positions_follow {s : PositionState} (h : positionSystem.Reachable s)
    (hclock : ∀ c ∈ s.calls, 0 < c.now) : s.Follows := by
  have hinv := positionSystem_inv h
  refine ⟨fun x hx => ?_, fun i x hx ts stream hlay hreads => ?_, ?_⟩
  · obtain ⟨i, hi⟩ := List.getElem?_of_mem hx
    exact (hinv.session i x hi).running
  · exact (hinv.session i x hx).transmissions hlay hreads
  · have hpos : ∀ c ∈ s.calls.map PositionCall.call, 0 < c.now :=
      List.forall_mem_map.mpr hclock
    have hkeeps := (keeps_history (s.calls.map PositionCall.call)).1.pos
    rw [AntennaState.getAntennaPosition, hinv.antenna, hkeeps]
    rcases history_fresh hpos with ⟨hnil, hlast⟩ | ⟨before, a, after, heq, hlast, hafter⟩
    · exact .inl ⟨List.map_eq_nil_iff.mp hnil, by rw [hlast]; rfl⟩
    · obtain ⟨b, l, hcalls, rfl, hl⟩ := List.map_eq_append_iff.mp heq
      obtain ⟨c, l', rfl, rfl, rfl⟩ := List.map_eq_cons_iff.mp hl
      refine .inr ⟨b, c, l', hcalls, by rw [hlast]; rfl, fun d hd => ?_⟩
      have hlt := hafter d.call (List.mem_map_of_mem hd)
      simp only [PositionCall.call] at hlt
      exact hlt

theorem coordinate_range : -2 ^ 37 ≤ (40000000000 : ℤ) ∧ (40000000000 : ℤ) < 2 ^ 37 := by decide

/-- 4000 km along two of the axes. -/
def station1005 : Message1005 where
  station := 1
  itrfYear := 0
  flags := 0
  x := ⟨40000000000, coordinate_range⟩
  afterX := 0
  y := ⟨40000000000, coordinate_range⟩
  afterY := 0
  z := ⟨40000000000, coordinate_range⟩

theorem length_station1005 : (station1005.payload []).length ≤ maxPayload := by
  rw [Message1005.length_payload]
  decide

theorem length_stationCrc : ([1, 2, 3] : Bytes).length = crcLen := rfl

/-- A frame with a message 1005 and any CRC. -/
def stationFrame : Frame := ⟨0, station1005.payload [], [1, 2, 3], length_station1005,
  length_stationCrc⟩

theorem stationFrame_carries (m : Message1005) (h : some station1005 = some m) :
    ∃ trailing, stationFrame.payload = m.payload trailing :=
  ⟨[], by rw [← Option.some.inj h]; rfl⟩

theorem stationFrame_silent (h : some station1005 = none)
    (_ : messageNumber stationFrame.payload = 1005) : stationFrame.payload.length < 19 := by
  cases h

/-- The frame, and the message that it carries. -/
def stationSends : Transmission :=
  ⟨stationFrame, some station1005, stationFrame_carries, stationFrame_silent⟩

/-- The message comes in two parts behind a stray byte, and its position is handed over. -/
def twoReads : List PositionStep :=
  [.connect, .read 0 (0x55 :: stationFrame.bytes.take 10), .packet 0 1,
    .read 0 (stationFrame.bytes.drop 10), .packet 0 1] ++
    if (station1005.position 1).isSome then [.update 0 1000000000] else []

theorem push_twoReads :
    RTCMFramer.push {} (0x55 :: stationFrame.bytes.take 10) = (⟨stationFrame.bytes.take 10⟩, []) ∧
    RTCMFramer.push ⟨stationFrame.bytes.take 10⟩ (stationFrame.bytes.drop 10) =
      ({}, [stationSends.packet]) ∧
    Readable readLoopSize (0x55 :: stationFrame.bytes.take 10) ∧
    Readable readLoopSize (stationFrame.bytes.drop 10) := by
  decide +kernel

theorem run_twoReads :
    ∃ s x, positionSystem.run ⟨{}, [], []⟩ twoReads = some s ∧ s.sessions[0]? = some x ∧
      x.reads.flatten = 0x55 :: stationFrame.bytes ∧ (∀ c ∈ s.calls, 0 < c.now) ∧
      s.positionsOf 0 = (station1005.position 1).toList := by
  obtain ⟨h₁, h₂, hr₁, hr₂⟩ := push_twoReads
  have hfound : foundPosition 1 stationSends.packet = .ok (station1005.position 1) :=
    stationSends.foundPosition_packet 1
  cases hpos : station1005.position 1 with
  | none =>
    simp [twoReads, hpos, System.run, positionSystem, PositionState.step, PositionSession.read,
      PositionSession.packet, PositionState.positionsOf, h₁, h₂, hr₁, hr₂, hfound]
  | some pos =>
    simp [twoReads, hpos, System.run, positionSystem, PositionState.step, PositionSession.read,
      PositionSession.packet, PositionSession.update, PositionState.positionsOf, h₁, h₂, hr₁, hr₂,
      hfound]

theorem positions_follow_twoReads :
    ∃ s x, positionSystem.run ⟨{}, [], []⟩ twoReads = some s ∧ s.sessions[0]? = some x ∧
      x.reads.flatten = 0x55 :: stationFrame.bytes ∧
      s.positionsOf 0 = (station1005.position 1).toList ∧ s.Follows := by
  obtain ⟨s, x, hs, hx, hreads, hclock, hpos⟩ := run_twoReads
  exact ⟨s, x, hs, hx, hreads, hpos, positions_follow (.of_run _ rfl hs) hclock⟩

end NtripCaster
