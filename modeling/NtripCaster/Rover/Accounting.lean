import NtripCaster.Rover.Delivery

/-!
# The bytes sent to a rover

`Client.BytesOut` of `internal/client/client.go`, which the admin API lists for every client: it is
added to after each `Write` that returned no error. Here it is compared with what is on the wire.

## Main definitions

* `Session.Goes`: what one step of the server can do to a session
* `Session.Written`: the packets counted, and the wire
* `Session.Accounted`: the invariant

## Main results

* `RoverState.step_goes`: every step moves at most one session, or starts one
* `Session.Accounted.goes`: what a step keeps
* `clientBytesOut_exact`: the counter is the length of the packets written in full
-/

namespace NtripCaster

open Transition

namespace Session

variable {x x' : Session}

/-- A step of the server, as one session sees it. -/
inductive Goes (x : Session) : Session → Prop
  | reject {response : Bytes} {r : WriteResult} {x' : Session} (hpc : x.pc.admitted = false)
      (h : x.reject response r = some x') : Goes x x'
  | check {pc : RoverPC} (hpc : x.pc.admitted = false) (hun : x.pc.unwritten = true)
      (hpc' : pc.admitted = false) (hun' : pc.unwritten = true) : Goes x { x with pc := pc }
  | addClient (c : Client) (hpc : x.pc = .addClient) : Goes x { x with client := c, pc := .add }
  | add (hpc : x.pc = .add) : Goes x { x with pc := .respond }
  | respond {r : WriteResult} {x' : Session} (hpc : x.pc = .respond)
      (h : x.respond r = some x') : Goes x x'
  | writeLoop {case : LoopCase} {r : WriteResult} {x' : Session}
      (h : x.writeLoop case r = some x') : Goes x x'
  | removeClient (hpc : x.pc = .removeClient) : Goes x { x with pc := .release }
  | release (hpc : x.pc = .release) : Goes x { x with pc := .finished }
  | watch {x' : Session} (h : x.watch = some x') : Goes x x'
  | closeConn {x' : Session} (h : x.closeConn = some x') : Goes x x'
  | kick : Goes x x.kick
  | trySend {n : ℕ} {pkt : RTCMPacket} {x' : Session} (h : x.trySend n pkt = some x') : Goes x x'
  | slow : Goes x { x with slow := true }

/-- The packets accepted so far are those written in full, which are counted, and others. On the
wire are the response and the packets counted, and then the next packet as far as a failed `Write`
got; or no more than a beginning of the response. -/
def Written (x : Session) : Prop :=
  ∃ w rest cut, x.packets = w ++ rest ∧ x.bytesOut = (bytesOf w).length ∧
    cut <+: bytesOf (rest.take 1) ∧
    (x.wire = icyOK ++ bytesOf w ++ cut ∨ w = [] ∧ x.wire <+: icyOK)

/-- The counter and the wire of a session, at every stage. -/
structure Accounted (x : Session) : Prop where
  refused : x.pc.admitted = false → x.bytesOut = 0
  unwritten : x.pc.unwritten = true →
    x.wire = [] ∧ x.bytesOut = 0 ∧ x.broken = false ∧ x.packets = x.writeChan
  running : x.pc.running = true → ∃ w, x.packets = w ++ x.pc.inFlight ++ x.writeChan ∧
    x.bytesOut = (bytesOf w).length ∧
    (x.wire = icyOK ++ bytesOf w ∨ x.writable = false ∧ w = [] ∧ x.wire <+: icyOK)
  written : x.pc.admitted = true → x.Written

end Session

namespace RoverState

open Session

variable {s s' : RoverState} {a : RoverStep}

/-- Every step moves at most one session, or starts one. -/
theorem step_goes (h : s.step a = some s') :
    Moved (fun x => ∃ mount id userID, x = newSession s.sessions.length mount id userID)
      Session.Goes s.sessions s'.sessions := by
  cases a with
  | connect mount id userID =>
    obtain rfl := Option.some.inj h
    exact .start ⟨mount, id, userID, rfl⟩
  | handler i ord r =>
    obtain ⟨x, hx, h⟩ := Option.bind_eq_some_iff.mp h
    obtain ⟨mt, hmt, h⟩ := Option.bind_eq_some_iff.mp h
    have hreject : ∀ response : String, x.pc.admitted = false →
        s.reject i x response r = some s' →
          Moved (fun x => ∃ mount id userID, x = newSession s.sessions.length mount id userID)
            Session.Goes s.sessions s'.sessions := by
      intro response hpc hs
      obtain ⟨x', hx', rfl⟩ := Option.map_eq_some_iff.mp hs
      exact .move hx (.reject hpc hx')
    split at h
    next hpc =>
      split at h
      · obtain rfl := Option.some.inj h
        exact .move hx (.check (by rw [hpc]; rfl) (by rw [hpc]; rfl) rfl rfl)
      · exact hreject _ (by rw [hpc]; rfl) h
    next hpc =>
      split at h
      · obtain rfl := Option.some.inj h
        exact .move hx (.check (by rw [hpc]; rfl) (by rw [hpc]; rfl) rfl rfl)
      · exact hreject _ (by rw [hpc]; rfl) h
    next hpc =>
      split at h
      · exact hreject _ (by rw [hpc]; rfl) h
      · obtain rfl := Option.some.inj h
        exact .move hx (.check (by rw [hpc]; rfl) (by rw [hpc]; rfl) rfl rfl)
    next hpc =>
      obtain ⟨c, -, h⟩ := Option.bind_eq_some_iff.mp h
      split at h
      · obtain rfl := Option.some.inj h
        exact .move hx (.addClient c hpc)
      · exact hreject _ (by rw [hpc]; rfl) h
    next hpc =>
      obtain rfl := Option.some.inj h
      exact .move hx (.add hpc)
    next hpc =>
      obtain ⟨x', hx', rfl⟩ := Option.map_eq_some_iff.mp h
      exact .move hx (.respond hpc hx')
    next => cases h
  | writeLoop i case ord r =>
    obtain ⟨x, hx, h⟩ := Option.bind_eq_some_iff.mp h
    split at h
    next hpc =>
      obtain ⟨mt, -, rfl⟩ := Option.map_eq_some_iff.mp h
      exact .move hx (.removeClient hpc)
    next hpc =>
      obtain rfl := Option.some.inj h
      exact .move hx (.release hpc)
    next =>
      obtain ⟨x', hx', rfl⟩ := Option.map_eq_some_iff.mp h
      exact .move hx (.writeLoop hx')
  | watch i =>
    obtain ⟨x, hx, h⟩ := Option.bind_eq_some_iff.mp h
    obtain ⟨x', hx', rfl⟩ := Option.map_eq_some_iff.mp h
    exact .move hx (.watch hx')
  | closeConn i =>
    obtain ⟨x, hx, h⟩ := Option.bind_eq_some_iff.mp h
    obtain ⟨x', hx', rfl⟩ := Option.map_eq_some_iff.mp h
    exact .move hx (.closeConn hx')
  | operate m op =>
    change s.operate m op = some s' at h
    unfold operate at h
    split at h
    · cases h
    · obtain ⟨mt, -, rfl⟩ := Option.map_eq_some_iff.mp h
      exact .same
  | teardown j =>
    change s.teardown j = some s' at h
    unfold teardown at h
    split at h
    · obtain ⟨x, hx, rfl⟩ := Option.map_eq_some_iff.mp h
      split
      · exact .same
      · exact .move hx .kick
    · cases h
  | broadcast m pkt =>
    obtain ⟨mt, -, h⟩ := Option.bind_eq_some_iff.mp h
    split at h
    · obtain rfl := Option.some.inj h
      exact .same
    · cases h
  | deliver m case =>
    obtain ⟨mt, -, h⟩ := Option.bind_eq_some_iff.mp h
    split at h
    · cases h
    · obtain rfl := Option.some.inj h
      exact .same
    · obtain ⟨x, -, rfl⟩ := Option.map_eq_some_iff.mp h
      split
      · exact .same
      · exact .same
    · obtain ⟨x, hx, h⟩ := Option.bind_eq_some_iff.mp h
      split at h
      · obtain ⟨x', hx', rfl⟩ := Option.map_eq_some_iff.mp h
        exact .move hx (.trySend hx')
      · obtain ⟨-, h⟩ := Option.ite_none_right_eq_some.mp h
        obtain rfl := Option.some.inj h
        exact .same
      · obtain ⟨-, h⟩ := Option.ite_none_right_eq_some.mp h
        obtain rfl := Option.some.inj h
        exact .same
    · obtain rfl := Option.some.inj h
      exact .same
    · obtain rfl := Option.some.inj h
      exact .same
    · obtain ⟨x, hx, rfl⟩ := Option.map_eq_some_iff.mp h
      split
      · exact .same
      · exact .move hx .slow
    · obtain ⟨x, hx, rfl⟩ := Option.map_eq_some_iff.mp h
      split
      · exact .same
      · exact .move hx .kick

end RoverState

/-! ## What a step keeps -/

namespace Session

variable {x x' : Session}

theorem newSession_accounted (ref mount : ℕ) (id : Bytes) (userID : ℤ) :
    (newSession ref mount id userID).Accounted where
  refused _ := rfl
  unwritten _ := ⟨rfl, rfl, rfl, rfl⟩
  running h := by cases h
  written h := by cases h

/-- A step that leaves the connection's output alone. The connection may be closed by it. -/
theorem Accounted.keeps (h : x.Accounted) (hpc : x'.pc = x.pc) (hwire : x'.wire = x.wire)
    (hbytes : x'.bytesOut = x.bytesOut) (hbroken : x'.broken = x.broken)
    (hqueue : x'.accepted = x.accepted ∧ x'.writeChan = x.writeChan)
    (hclose : x.writable = false → x'.writable = false) : x'.Accounted := by
  have hpackets : x'.packets = x.packets := congrArg (List.map Prod.snd) hqueue.1
  refine ⟨fun hp => ?_, fun hp => ?_, fun hp => ?_, fun hp => ?_⟩
  · rw [hpc] at hp
    exact hbytes.trans (h.refused hp)
  · rw [hpc] at hp
    rw [hwire, hbytes, hbroken, hpackets, hqueue.2]
    exact h.unwritten hp
  · rw [hpc] at hp
    obtain ⟨w, hw, hcount, hout⟩ := h.running hp
    refine ⟨w, by rw [hpackets, hpc, hqueue.2]; exact hw, hbytes.trans hcount, ?_⟩
    rw [hwire]
    exact hout.imp_right fun ⟨hwr, hnil, hpre⟩ => ⟨hclose hwr, hnil, hpre⟩
  · rw [hpc] at hp
    unfold Written
    rw [hpackets, hbytes, hwire]
    exact h.written hp

theorem Accounted.kick (h : x.Accounted) : x.kick.Accounted := by
  unfold Session.kick
  split
  next hopen =>
    refine h.keeps rfl rfl rfl rfl ⟨rfl, rfl⟩ fun hwr => ?_
    simpa [writable, hopen] using hwr
  next => exact h

/-- An admitted session that writes no more. -/
theorem Accounted.of_written (hadm : x.pc.admitted = true) (hun : x.pc.unwritten = false)
    (hrun : x.pc.running = false) (h : x.Written) : x.Accounted := by
  refine ⟨fun hp => ?_, fun hp => ?_, fun hp => ?_, fun _ => h⟩
  · exact absurd (hadm.symm.trans hp) (by decide)
  · exact absurd (hun.symm.trans hp) (by decide)
  · exact absurd (hrun.symm.trans hp) (by decide)

/-- A running session has written the packets `w`. -/
theorem Accounted.of_running (hrun : x.pc.running = true) {w : List RTCMPacket}
    (hw : x.packets = w ++ x.pc.inFlight ++ x.writeChan) (hcount : x.bytesOut = (bytesOf w).length)
    (hout : x.wire = icyOK ++ bytesOf w ∨ x.writable = false ∧ w = [] ∧ x.wire <+: icyOK) :
    x.Accounted := by
  have hstage : x.pc.admitted = true ∧ x.pc.unwritten = false := by
    cases hpc : x.pc with
    | select => exact ⟨rfl, rfl⟩
    | write => exact ⟨rfl, rfl⟩
    | _ => rw [hpc] at hrun; cases hrun
  refine ⟨fun hp => ?_, fun hp => ?_, fun _ => ⟨w, hw, hcount, hout⟩, fun _ => ?_⟩
  · exact absurd (hstage.1.symm.trans hp) (by decide)
  · exact absurd (hstage.2.symm.trans hp) (by decide)
  · exact ⟨w, x.pc.inFlight ++ x.writeChan, [], hw.trans (List.append_assoc ..), hcount,
      List.nil_prefix, hout.imp (fun h => by rw [h, List.append_nil]) And.right⟩

/-- A write loop that kicks its client writes no more. -/
theorem Written.kicked (h : x.Written) : Accounted { x.kick with pc := .kick } := by
  have hwritten : ∀ c : CloseState, Written { x with closeOnce := c, pc := .kick } := fun _ => h
  unfold Session.kick
  split
  · exact .of_written rfl rfl rfl (hwritten _)
  · exact .of_written rfl rfl rfl (hwritten _)

/-- Past its write loop, an admitted session has written what it will write. -/
theorem Accounted.leave (h : x.Accounted) {pc : RoverPC} (hadm : x.pc.admitted = true)
    (hadm' : pc.admitted = true) (hun : pc.unwritten = false) (hrun : pc.running = false) :
    Accounted { x with pc := pc } :=
  have hwritten : Written { x with pc := pc } := h.written hadm
  .of_written hadm' hun hrun hwritten

/-- A handler that has not written moves on. -/
theorem Accounted.handler (h : x.Accounted) {pc : RoverPC} (c : Client)
    (hun : x.pc.unwritten = true) (hrun : pc.running = false) :
    Accounted { x with client := c, pc := pc } := by
  obtain ⟨hwire, hbytes, hbroken, hqueue⟩ := h.unwritten hun
  refine ⟨fun _ => hbytes, fun _ => ⟨hwire, hbytes, hbroken, hqueue⟩, fun hp => ?_, fun _ => ?_⟩
  · exact absurd (hrun.symm.trans hp) (by decide)
  · exact ⟨[], x.packets, [], rfl, hbytes, List.nil_prefix, .inr ⟨rfl, hwire ▸ List.nil_prefix⟩⟩

/-- The response goes out, in full or not. -/
theorem Accounted.respond (h : x.Accounted) {r : WriteResult} (hpc : x.pc = .respond)
    (hx : x.respond r = some x') : x'.Accounted := by
  obtain ⟨⟨y, ok⟩, hw, rfl⟩ := Option.map_eq_some_iff.mp hx
  obtain ⟨hwire, hbytes, -, hqueue⟩ := h.unwritten (by rw [hpc]; rfl)
  obtain ⟨sent, broken, rfl, hsent, -, hok, hfail⟩ := connWrite_eq_some hw
  have hout : x.wire ++ sent = icyOK ++ bytesOf [] ∨
      Session.writable { x with wire := x.wire ++ sent, broken := broken } = false ∧
        ([] : List RTCMPacket) = [] ∧ x.wire ++ sent <+: icyOK := by
    rw [hwire, List.nil_append]
    cases ok with
    | true => exact .inl (by rw [(hok rfl).1]; exact (List.append_nil _).symm)
    | false => exact .inr ⟨hfail rfl, rfl, hsent⟩
  exact .of_running (w := []) rfl hqueue hbytes hout

/-- The write loop receives a packet, writes it, or leaves. -/
theorem Accounted.writeLoop (h : x.Accounted) {case : LoopCase} {r : WriteResult}
    (hx : x.writeLoop case r = some x') : x'.Accounted := by
  unfold Session.writeLoop at hx
  split at hx
  next hpc =>
    obtain ⟨-, hx⟩ := Option.ite_none_right_eq_some.mp hx
    exact Option.some.inj hx ▸ h.leave (by rw [hpc]; rfl) rfl rfl rfl
  next hpc =>
    obtain ⟨-, hx⟩ := Option.ite_none_right_eq_some.mp hx
    exact Option.some.inj hx ▸ h.leave (by rw [hpc]; rfl) rfl rfl rfl
  next hpc =>
    split at hx
    · cases hx
    next pkt rest hq =>
      -- the packet is in flight instead of queued
      obtain rfl := Option.some.inj hx
      obtain ⟨w, hw, hcount, hout⟩ := h.running (by rw [hpc]; rfl)
      rw [hpc, hq] at hw
      have hw' : x.packets = w ++ [pkt] ++ rest := by simpa [RoverPC.inFlight] using hw
      exact .of_running rfl hw' hcount hout
  next pkt hpc =>
    obtain ⟨⟨y, ok⟩, hwrite, rfl⟩ := Option.map_eq_some_iff.mp hx
    obtain ⟨w, hw, hcount, hout⟩ := h.running (by rw [hpc]; rfl)
    rw [hpc] at hw
    obtain ⟨sent, broken, rfl, hsent, hwr, hok, -⟩ := connWrite_eq_some hwrite
    cases ok with
    | true =>
      obtain ⟨rfl, hwritable⟩ := hok rfl
      have hwire := hout.resolve_right fun hno => absurd (hwritable.symm.trans hno.1) (by decide)
      have hw' : x.packets = w ++ [pkt] ++ [] ++ x.writeChan := by rwa [List.append_nil]
      have hcount' : x.bytesOut + pkt.data.length = (bytesOf (w ++ [pkt])).length := by
        rw [bytesOf_append, bytesOf_singleton, List.length_append, hcount]
        rfl
      have hwire' : x.wire ++ pkt.data = icyOK ++ bytesOf (w ++ [pkt]) := by
        rw [hwire, bytesOf_append, bytesOf_singleton, List.append_assoc]
      exact .of_running rfl hw' hcount' (.inl hwire')
    | false =>
      -- the packet is cut off: what went out is not counted
      have hwritten : Written { x with wire := x.wire ++ sent, broken := broken } := by
        refine ⟨w, [pkt] ++ x.writeChan, sent, hw.trans (List.append_assoc ..), hcount,
          by simpa [bytesOf] using hsent, ?_⟩
        by_cases hnil : sent = []
        · rw [hnil]
          exact hout.imp (fun h => by rw [h]) fun h => ⟨h.2.1, by simpa using h.2.2⟩
        · exact .inl (congrArg (· ++ sent) (hout.resolve_right fun hno =>
            absurd ((hwr hnil).symm.trans hno.1) (by decide)))
      exact hwritten.kicked
  next hpc =>
    obtain ⟨-, hx⟩ := Option.ite_none_right_eq_some.mp hx
    exact Option.some.inj hx ▸ h.leave (by rw [hpc]; rfl) rfl rfl rfl
  next => cases hx

/-- Another packet is accepted. -/
theorem Written.append (h : x.Written) {pkt : RTCMPacket}
    (hpackets : x'.packets = x.packets ++ [pkt]) (hbytes : x'.bytesOut = x.bytesOut)
    (hwire : x'.wire = x.wire) : x'.Written := by
  obtain ⟨w, rest, cut, hw, hcount, hcut, hout⟩ := h
  refine ⟨w, rest ++ [pkt], cut, ?_, hbytes.trans hcount, ?_, by rw [hwire]; exact hout⟩
  · rw [hpackets, hw, List.append_assoc]
  · cases rest with
    | nil =>
      rw [List.prefix_nil.mp hcut]
      exact List.nil_prefix
    | cons next rest => exact hcut

/-- A packet is accepted: it is queued, or handed to the write loop. -/
theorem Accounted.trySend (h : x.Accounted) (hd : x.Delivered) {n : ℕ} {pkt : RTCMPacket}
    (hx : x.trySend n pkt = some x') : x'.Accounted := by
  have hpackets : (x.accepted ++ [(n, pkt)]).map Prod.snd = x.packets ++ [pkt] := List.map_append
  unfold Session.trySend at hx
  split at hx
  next =>
    obtain rfl := Option.some.inj hx
    refine ⟨h.refused, fun hun => ?_, fun hrun => ?_, fun hadm => ?_⟩
    · obtain ⟨hwire, hbytes, hbroken, hqueue⟩ := h.unwritten hun
      exact ⟨hwire, hbytes, hbroken, hpackets.trans (by rw [hqueue])⟩
    · obtain ⟨w, hw, hcount, hout⟩ := h.running hrun
      exact ⟨w, hpackets.trans (by rw [hw, List.append_assoc]), hcount, hout⟩
    · exact (h.written hadm).append hpackets rfl rfl
  next =>
    obtain ⟨⟨hzero, hpc⟩, hx⟩ := Option.ite_none_right_eq_some.mp hx
    obtain rfl := Option.some.inj hx
    -- without a buffer nothing is queued before it
    have hnil : x.writeChan = [] := List.eq_nil_of_length_eq_zero (by
      have := hd.bounded
      omega)
    obtain ⟨w, hw, hcount, hout⟩ := h.running (by rw [hpc]; rfl)
    rw [hpc, hnil, List.append_nil] at hw
    have hw' : (x.accepted ++ [(n, pkt)]).map Prod.snd = w ++ [pkt] ++ x.writeChan := by
      rw [hpackets, hw, hnil, List.append_nil]
      simp [RoverPC.inFlight]
    exact .of_running rfl hw' hcount hout

/-- Every step keeps the counter and the wire of every session together. -/
theorem Accounted.goes (h : x.Accounted) (hd : x.Delivered) (hx : x.Goes x') : x'.Accounted := by
  cases hx with
  | reject hpc hr =>
    obtain ⟨⟨y, ok⟩, hw, rfl⟩ := Option.map_eq_some_iff.mp hr
    obtain ⟨sent, broken, rfl, -⟩ := connWrite_eq_some hw
    refine ⟨fun _ => h.refused hpc, fun hp => ?_, fun hp => ?_, fun hp => ?_⟩
    all_goals cases hp
  | check hpc hun hpc' hun' =>
    refine ⟨fun _ => h.refused hpc, fun _ => h.unwritten hun, fun hrun => ?_, fun hadm => ?_⟩
    · exact absurd ((RoverPC.of_not_admitted hpc').2.2.symm.trans hrun) (by decide)
    · exact absurd (hpc'.symm.trans hadm) (by decide)
  | addClient c hpc => exact h.handler c (by rw [hpc]; rfl) rfl
  | add hpc => exact h.handler x.client (by rw [hpc]; rfl) rfl
  | respond hpc hr => exact h.respond hpc hr
  | writeLoop hr => exact h.writeLoop hr
  | removeClient hpc => exact h.leave (by rw [hpc]; rfl) rfl rfl rfl
  | release hpc => exact h.leave (by rw [hpc]; rfl) rfl rfl rfl
  | watch hr =>
    unfold Session.watch at hr
    split at hr
    · obtain rfl := Option.some.inj hr
      exact h.kick.keeps rfl rfl rfl rfl ⟨rfl, rfl⟩ id
    · obtain ⟨-, hr⟩ := Option.ite_none_right_eq_some.mp hr
      obtain rfl := Option.some.inj hr
      exact h.keeps rfl rfl rfl rfl ⟨rfl, rfl⟩ id
    · cases hr
  | closeConn hr =>
    obtain ⟨-, hr⟩ := Option.ite_none_right_eq_some.mp hr
    obtain rfl := Option.some.inj hr
    exact h.keeps rfl rfl rfl rfl ⟨rfl, rfl⟩ fun _ => Bool.and_false _
  | kick => exact h.kick
  | trySend hr => exact h.trySend hd hr
  | slow => exact h.keeps rfl rfl rfl rfl ⟨rfl, rfl⟩ id

end Session

theorem reachable_serving {maxClients : ℤ} {s : RoverState}
    (h : (roverSystem maxClients).Reachable s) : Serving s := by
  refine h.invariant ?_ fun s a s' _ hs hstep => hs.effect (RoverState.step_effect hstep)
  rintro s ⟨mounts, hfresh, rfl⟩
  exact .init hfresh

/-- **The counter of a client is exact.** In every reachable state, `BytesOut` of a session is the
length of the packets that have been written to its connection in full, an initial part of those
it has accepted; on the wire there is at most a cut off packet beyond them, and no packet at all if
the response did not go out whole. It is 0 for a connection that was not accepted. -/
theorem clientBytesOut_exact {maxClients : ℤ} {s : RoverState}
    (h : (roverSystem maxClients).Reachable s) :
    ∀ x ∈ s.sessions, if x.pc.admitted then x.Written else x.bytesOut = 0 := by
  have hall : ∀ x ∈ s.sessions, x.Accounted := by
    refine h.invariant (I := fun s => ∀ x ∈ s.sessions, x.Accounted) ?_ ?_
    · rintro s ⟨mounts, -, rfl⟩ x hx
      cases hx
    · intro s a s' hreach hs hstep
      have hserving := reachable_serving hreach
      have hmoved := RoverState.step_goes hstep
      generalize s'.sessions = sessions' at hmoved ⊢
      cases hmoved with
      | same => exact hs
      | start hnew =>
        obtain ⟨mount, id, userID, rfl⟩ := hnew
        exact forall_mem_snoc hs (Session.newSession_accounted _ _ _ _)
      | move hx hgoes =>
        have hmem := List.mem_of_getElem? hx
        exact forall_mem_set hs ((hs _ hmem).goes (hserving.delivered _ hmem) hgoes)
  intro x hx
  split_ifs with hadm
  · exact (hall x hx).written hadm
  · exact (hall x hx).refused (Bool.eq_false_iff.mpr hadm)

/-- A rover joins and takes a packet of two bytes; the write of the next one fails after a byte. -/
def cutOff : List RoverStep :=
  let take (pkt : RTCMPacket) : List RoverStep :=
    [.broadcast 0 pkt, .deliver 0 .writeChan, .deliver 0 .writeChan, .deliver 0 .writeChan,
      .writeLoop 0 .writeChan .stored .ok]
  [.operate 0 (.setSource ⟨0, ascii "s", 0⟩), .connect 0 (ascii "a") 0] ++
    List.replicate 6 (.handler 0 .stored .ok) ++ take ⟨[1, 2]⟩ ++
    [.writeLoop 0 .writeChan .stored .ok] ++ take ⟨[3, 4]⟩ ++
    [.writeLoop 0 .writeChan .stored (.fails 1)]

theorem clientBytesOut_exact_cutOff :
    ∃ s x, (roverSystem 8).run (oneMount 8) cutOff = some s ∧
      (s.sessions = [x] ∧ x.wire = icyOK ++ [1, 2, 3] ∧ x.bytesOut = 2) ∧
      if x.pc.admitted then x.Written else x.bytesOut = 0 := by
  obtain ⟨s, x, hs, hx, hwire⟩ :
      ∃ s x, (roverSystem 8).run (oneMount 8) cutOff = some s ∧ s.sessions = [x] ∧
        x.wire = icyOK ++ [1, 2, 3] ∧ x.bytesOut = 2 := ⟨_, _, rfl, rfl, rfl, rfl⟩
  refine ⟨s, x, hs, ⟨hx, hwire⟩, ?_⟩
  exact clientBytesOut_exact (.of_run _ (oneMount_init 8) hs) x (hx ▸ List.mem_singleton_self x)

end NtripCaster
