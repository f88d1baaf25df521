import NtripCaster.Rover.Registered

/-!
# Closing and teardowns

What is closed stays closed, and a client that a teardown has still to kick is closed before the
teardown is over. This holds of every step, whatever else goes on.

## Main definitions

* `Session.Ended`: a session whose write loop is leaving is closed
* `Session.Ages`: how any step may change a session
* `RoverState.Closed`, `RoverState.Kicking`: a client is closed, or a teardown has still to kick it
* `RoverState.MountStep`: what a step does to mountpoints and teardowns

## Main results

* `RoverState.step_mountStep`: every step does one of these
* `RoverState.step_sessions`: every step ages the sessions
* `RoverState.settled_step`: closed or to be kicked, a client remains so
* `RoverState.OnMount.step`: what is registered on a mountpoint, after a step
-/

namespace NtripCaster

open Transition

/-- How far the function of `CloseOnce` has come. -/
def CloseState.rank : CloseState → ℕ
  | notRun => 0
  | doneClosed => 1
  | connClosed => 2

theorem CloseState.rank_le (c : CloseState) : c.rank ≤ 2 := by
  cases c <;> decide

theorem CloseState.eq_connClosed {c : CloseState} (h : 2 ≤ c.rank) : c = .connClosed := by
  cases c
  · exact absurd h (by decide)
  · exact absurd h (by decide)
  · rfl

/-- The write loop has left its `select` for good. -/
def RoverPC.leaving : RoverPC → Bool
  | removeClient | release | finished => true
  | _ => false

namespace Session

variable {x x' : Session}

theorem isDone_iff : x.isDone = true ↔ 1 ≤ x.closeOnce.rank := by
  unfold isDone
  cases x.closeOnce <;> decide

/-- `CloseOnce` has closed the connection. -/
def connIsClosed (x : Session) : Bool := x.closeOnce == .connClosed

/-- A session whose write loop is leaving is closed; its read side is through with closing it. -/
structure Ended (x : Session) : Prop where
  readDone : x.monitor = .readDone → x.closeOnce = .connClosed
  leaving : x.pc.leaving = true → x.isDone = true

/-- How any step may change a session. -/
structure Ages (x x' : Session) : Prop where
  closeOnce : x.closeOnce.rank ≤ x'.closeOnce.rank
  ended : x.Ended → x'.Ended

theorem Ages.refl (x : Session) : x.Ages x := ⟨Nat.le_refl _, id⟩

theorem Ages.trans {x'' : Session} (h : x.Ages x') (h' : x'.Ages x'') : x.Ages x'' :=
  ⟨h.closeOnce.trans h'.closeOnce, h'.ended ∘ h.ended⟩

theorem Ages.isDone (h : x.Ages x') (hd : x.isDone = true) : x'.isDone = true :=
  isDone_iff.mpr ((isDone_iff.mp hd).trans h.closeOnce)

theorem Ages.connClosed (h : x.Ages x') (hc : x.closeOnce = .connClosed) :
    x'.closeOnce = .connClosed := by
  have hle := h.closeOnce
  rw [hc] at hle
  exact CloseState.eq_connClosed hle

/-- A step ages a session if it starts leaving, or is through with its read side, only when it
is closed. -/
theorem Ages.of_moves (hclose : x.closeOnce.rank ≤ x'.closeOnce.rank)
    (hmonitor : x'.monitor = .readDone → x.monitor = .readDone ∨ x.closeOnce = .connClosed)
    (hpc : x.Ended → x'.pc.leaving = true → x.pc.leaving = true ∨ x.isDone = true) :
    x.Ages x' where
  closeOnce := hclose
  ended h := by
    constructor
    · intro hm
      have hc : x.closeOnce = .connClosed := (hmonitor hm).elim h.readDone id
      rw [hc] at hclose
      exact CloseState.eq_connClosed hclose
    · intro hl
      have hd : x.isDone = true := (hpc h hl).elim h.leaving id
      exact isDone_iff.mpr ((isDone_iff.mp hd).trans hclose)

/-- A step that leaves `CloseOnce` and the read side alone. -/
theorem Ages.of_pc (hclose : x'.closeOnce = x.closeOnce) (hmonitor : x'.monitor = x.monitor)
    (hpc : x'.pc.leaving = true → x.pc.leaving = true) : x.Ages x' :=
  .of_moves (by rw [hclose]) (fun hm => .inl (hmonitor ▸ hm)) fun _ hl => .inl (hpc hl)

theorem ages_kick (x : Session) : x.Ages x.kick := by
  unfold kick
  split
  next h => exact .of_moves (by rw [h]; exact Nat.zero_le 1) .inl fun _ => .inl
  next => exact .refl x

theorem ages_closeConn (h : x.closeConn = some x') : x.Ages x' := by
  obtain ⟨-, h⟩ := Option.ite_none_right_eq_some.mp h
  exact Option.some.inj h ▸ .of_moves x.closeOnce.rank_le .inl fun _ => .inl

theorem connWrite_keeps {b : Bytes} {r : WriteResult} {ok : Bool}
    (h : x.connWrite b r = some (x', ok)) :
    x'.closeOnce = x.closeOnce ∧ x'.monitor = x.monitor ∧ x'.pc = x.pc := by
  obtain ⟨sent, broken, rfl, -⟩ := connWrite_eq_some h
  exact ⟨rfl, rfl, rfl⟩

theorem ages_reject {response : Bytes} {r : WriteResult} (h : x.reject response r = some x') :
    x.Ages x' := by
  obtain ⟨⟨y, ok⟩, hw, rfl⟩ := Option.map_eq_some_iff.mp h
  obtain ⟨hclose, hmonitor, -⟩ := connWrite_keeps hw
  exact .of_pc hclose hmonitor nofun

theorem ages_respond {r : WriteResult} (h : x.respond r = some x') : x.Ages x' := by
  obtain ⟨⟨y, ok⟩, hw, rfl⟩ := Option.map_eq_some_iff.mp h
  obtain ⟨hclose, -⟩ := connWrite_keeps hw
  exact .of_moves (Nat.le_of_eq (congrArg CloseState.rank hclose.symm)) nofun nofun

theorem ages_watch (h : x.watch = some x') : x.Ages x' := by
  unfold watch at h
  split at h
  next =>
    refine Option.some.inj h ▸ x.ages_kick.trans (.of_moves (Nat.le_refl _) nofun ?_)
    exact fun _ => .inl
  next =>
    obtain ⟨hc, h⟩ := Option.ite_none_right_eq_some.mp h
    exact Option.some.inj h ▸ .of_moves (Nat.le_refl _) (fun _ => .inr hc) fun _ => .inl
  next => cases h

/-- Nothing reopens what is closed, and the write loop leaves only once it is. -/
theorem ages_writeLoop {case : LoopCase} {r : WriteResult} (h : x.writeLoop case r = some x') :
    x.Ages x' := by
  unfold writeLoop at h
  split at h
  next =>
    obtain ⟨hd, h⟩ := Option.ite_none_right_eq_some.mp h
    exact Option.some.inj h ▸ .of_moves (Nat.le_refl _) .inl fun _ _ => .inr hd
  -- the read side has closed the session before it closed `readDone`
  next =>
    obtain ⟨hm, h⟩ := Option.ite_none_right_eq_some.mp h
    refine Option.some.inj h ▸ .of_moves (Nat.le_refl _) .inl fun he _ => .inr ?_
    simp [isDone, he.readDone hm]
  next =>
    split at h
    · cases h
    · exact Option.some.inj h ▸ .of_pc rfl rfl fun hl => by cases hl
  next =>
    obtain ⟨⟨y, ok⟩, hw, rfl⟩ := Option.map_eq_some_iff.mp h
    obtain ⟨hclose, hmonitor, hpc⟩ := connWrite_keeps hw
    have hy : x.Ages y := .of_pc hclose hmonitor fun hl => hpc ▸ hl
    cases ok with
    | true => exact hy.trans (.of_pc rfl rfl fun hl => by cases hl)
    | false => exact (hy.trans y.ages_kick).trans (.of_pc rfl rfl fun hl => by cases hl)
  next =>
    obtain ⟨hc, h⟩ := Option.ite_none_right_eq_some.mp h
    refine Option.some.inj h ▸ .of_moves (Nat.le_refl _) .inl fun _ _ => .inr ?_
    simp [isDone, hc]
  next => cases h

theorem ages_trySend {n : ℕ} {pkt : RTCMPacket} (h : x.trySend n pkt = some x') : x.Ages x' := by
  unfold trySend at h
  split at h
  · exact Option.some.inj h ▸ .of_pc rfl rfl id
  · obtain ⟨-, h⟩ := Option.ite_none_right_eq_some.mp h
    exact Option.some.inj h ▸ .of_pc rfl rfl nofun

theorem newSession_ended (ref mount : ℕ) (id : Bytes) (userID : ℤ) :
    (newSession ref mount id userID).Ended :=
  ⟨nofun, nofun⟩

end Session

/-! ## Steps -/

open RoverState

/-- The sessions after a step: one more, or one of them aged. -/
inductive SessionsAge (l : List Session) : List Session → Prop
  | same : SessionsAge l l
  | connect (mount : ℕ) (id : Bytes) (userID : ℤ) :
    SessionsAge l (l ++ [newSession l.length mount id userID])
  | ages {i : ℕ} {x x' : Session} (hx : l[i]? = some x) (h : x.Ages x') :
    SessionsAge l (l.set i x')

namespace SessionsAge

variable {l l' : List Session}

/-- A session is still there, and has aged. -/
theorem exists_ages (h : SessionsAge l l') {i : ℕ} {x : Session} (hx : l[i]? = some x) :
    ∃ x', l'[i]? = some x' ∧ x.Ages x' := by
  cases h with
  | same => exact ⟨x, hx, .refl x⟩
  | connect mount id userID =>
    refine ⟨x, ?_, .refl x⟩
    exact getElem?_append_of_eq_some hx
  | @ages j y y' hy hage =>
    by_cases hji : j = i
    · subst hji
      obtain rfl := Option.some.inj (hx.symm.trans hy)
      exact ⟨y', getElem?_set_of_eq_some hx, hage⟩
    · exact ⟨x, by rw [List.getElem?_set_ne hji]; exact hx, .refl x⟩

/-- Sessions that are ended when they leave stay so. -/
theorem ended (h : SessionsAge l l') (hl : ∀ x ∈ l, x.Ended) : ∀ x ∈ l', x.Ended := by
  cases h with
  | same => exact hl
  | connect mount id userID =>
    exact forall_mem_snoc hl (Session.newSession_ended l.length mount id userID)
  | ages hx hage => exact forall_mem_set hl (hage.ended (hl _ (List.mem_of_getElem? hx)))

end SessionsAge

/-! ## Mountpoints -/

/-- A mountpoint after a step that is no critical section of its own: some clients may be gone. -/
structure MountPoint.Loses (mp mp' : MountPoint) : Prop where
  source : mp'.source = mp.source
  enabled : mp'.enabled = mp.enabled
  lookup : ∀ id c, mp'.clientsByID.lookup id = some c → mp.clientsByID.lookup id = some c

theorem MountPoint.Loses.refl (mp : MountPoint) : mp.Loses mp := ⟨rfl, rfl, fun _ _ => id⟩

theorem MountPoint.removeClient_loses (mp : MountPoint) (ord : RangeOrder Client) (id : Bytes) :
    mp.Loses (mp.removeClient ord id) := by
  refine ⟨?_, ?_, fun _ _ hc => (lookup_removeClient hc).2⟩
  · unfold removeClient
    split <;> rfl
  · unfold removeClient
    split <;> rfl

/-- `AddClient` leaves the source alone. -/
theorem MountPoint.addClient_source {m m' : MountPoint} {ord : RangeOrder Client} {c : Client}
    (h : m.addClient ord c = .ok m') : m'.source = m.source := by
  unfold addClient at h
  split_ifs at h
  obtain rfl := Except.ok.inj h
  rfl

theorem MountPoint.lookup_addClient {m m' : MountPoint} {ord : RangeOrder Client} {c d : Client}
    {id : Bytes} (h : m.addClient ord c = .ok m') (hd : m'.clientsByID.lookup id = some d) :
    d = c ∨ m.clientsByID.lookup id = some d := by
  unfold addClient at h
  split_ifs at h
  obtain rfl := Except.ok.inj h
  rcases GoMap.lookup_insert_eq_some.mp hd with ⟨-, rfl⟩ | ⟨-, hold⟩
  · exact .inl rfl
  · exact .inr hold

/-- A source is registered by `SetSource` only. -/
theorem MountPoint.source_apply {m : MountPoint} {op : CriticalSection} {src : SourceInfo}
    (h : (m.apply op).source = some src) : m.source = some src ∨ op = .setSource src := by
  cases op with
  | setSource info =>
    simp only [MountPoint.apply, MountPoint.setSource] at h
    split at h
    · exact .inl h
    · obtain rfl := Option.some.inj h
      exact .inr rfl
  | clearSource ord srcID =>
    simp only [MountPoint.apply, MountPoint.clearSource] at h
    split at h
    · exact .inl h
    · split at h
      · exact .inl h
      · cases h
  | addClient ord c =>
    simp only [MountPoint.apply] at h
    split at h
    next hadd => exact .inl (addClient_source hadd ▸ h)
    next => exact .inl h
  | removeClient ord id => exact .inl ((m.removeClient_loses ord id).source ▸ h)
  | kickClient ord id =>
    simp only [MountPoint.apply, MountPoint.kickClient] at h
    split at h <;> exact .inl h
  | kickClientsByUser ord ord' userID =>
    simp only [MountPoint.apply, MountPoint.kickClientsByUser] at h
    split at h <;> exact .inl h
  | kickSourceByUser ord ord' userID =>
    simp only [MountPoint.apply, MountPoint.kickSourceByUser] at h
    split at h
    · exact .inl h
    · split at h
      · exact .inl h
      · cases h
  | disconnectAll ord => cases h
  | update description format enabled writeQueue writeTimeout maxClients => exact .inl h

/-- Every mountpoint after a step was there before it. -/
def MountsLose (l l' : List Mount) : Prop :=
  ∀ (m : ℕ) (mt' : Mount), l'[m]? = some mt' → ∃ mt, l[m]? = some mt ∧ mt.point.Loses mt'.point

theorem MountsLose.refl (l : List Mount) : MountsLose l l :=
  fun _ mt hmt => ⟨mt, hmt, .refl mt.point⟩

theorem MountsLose.set {l : List Mount} {m : ℕ} {mt mt' : Mount} (hmt : l[m]? = some mt)
    (h : mt.point.Loses mt'.point) : MountsLose l (l.set m mt') := by
  intro k mt'' hk
  rcases getElem?_set_eq_some hk with ⟨rfl, rfl⟩ | ⟨-, hk⟩
  · exact ⟨mt, hmt, h⟩
  · exact ⟨mt'', hk, .refl mt''.point⟩

namespace RoverState

variable {s s' : RoverState}

/-- A step of a session or of a broadcast: the sessions age, the mountpoints may lose clients, the
teardowns stay. -/
structure Keeps (s s' : RoverState) : Prop where
  sessions : SessionsAge s.sessions s'.sessions
  mounts : MountsLose s.mounts s'.mounts
  teardowns : s'.teardowns = s.teardowns

/-- One session moves. -/
theorem Keeps.of_session {i : ℕ} {x x' : Session} (hx : s.sessions[i]? = some x)
    (h : x.Ages x') : s.Keeps (s.setSession i x') :=
  ⟨.ages hx h, .refl _, rfl⟩

/-- A broadcast moves on. -/
theorem Keeps.of_mount {m : ℕ} {mt mt' : Mount} (hmt : s.mounts[m]? = some mt)
    (h : mt.point.Loses mt'.point) : s.Keeps (s.setMount m mt') :=
  ⟨.same, .set hmt h, rfl⟩

theorem reject_keeps {i : ℕ} {x : Session} (hx : s.sessions[i]? = some x) {response : String}
    {r : WriteResult} (h : s.reject i x response r = some s') : s.Keeps s' := by
  obtain ⟨x', hx', rfl⟩ := Option.map_eq_some_iff.mp h
  exact .of_session hx (Session.ages_reject hx')

theorem writeLoop_keeps {i : ℕ} {case : LoopCase} {ord : RangeOrder Client} {r : WriteResult}
    (h : s.writeLoop i case ord r = some s') : s.Keeps s' := by
  obtain ⟨x, hx, h⟩ := Option.bind_eq_some_iff.mp h
  split at h
  next hpc =>
    obtain ⟨mt, hmt, rfl⟩ := Option.map_eq_some_iff.mp h
    exact ⟨.ages hx (.of_pc rfl rfl fun _ => by rw [hpc]; rfl),
      .set hmt (mt.point.removeClient_loses ord x.client.id), rfl⟩
  next hpc =>
    exact Option.some.inj h ▸
      ⟨.ages hx (.of_pc rfl rfl fun _ => by rw [hpc]; rfl), .refl _, rfl⟩
  next =>
    obtain ⟨x', hx', rfl⟩ := Option.map_eq_some_iff.mp h
    exact .of_session hx (Session.ages_writeLoop hx')

theorem startBroadcast_keeps {m : ℕ} {pkt : RTCMPacket} (h : s.startBroadcast m pkt = some s') :
    s.Keeps s' := by
  obtain ⟨mt, hmt, h⟩ := Option.bind_eq_some_iff.mp h
  split at h
  · exact Option.some.inj h ▸ .of_mount hmt (.refl mt.point)
  · cases h

/-- A broadcast kicks slow clients, and takes nobody off the mountpoint itself. -/
theorem deliver_keeps {m : ℕ} {case : SendCase} (h : s.deliver m case = some s') : s.Keeps s' := by
  obtain ⟨mt, hmt, h⟩ := Option.bind_eq_some_iff.mp h
  -- a broadcast that moves on leaves the mountpoint alone
  have hmove : ∀ pc, s.Keeps (s.setBroadcast m mt pc) := fun _ => .of_mount hmt (.refl mt.point)
  split at h
  · cases h
  · exact Option.some.inj h ▸ hmove _
  · obtain ⟨x, -, rfl⟩ := Option.map_eq_some_iff.mp h
    split
    · exact hmove _
    · exact hmove _
  · obtain ⟨x, hx, h⟩ := Option.bind_eq_some_iff.mp h
    split at h
    · obtain ⟨x', hx', rfl⟩ := Option.map_eq_some_iff.mp h
      exact ⟨.ages hx (Session.ages_trySend hx'), (hmove _).mounts, rfl⟩
    · obtain ⟨-, h⟩ := Option.ite_none_right_eq_some.mp h
      exact Option.some.inj h ▸ hmove _
    · obtain ⟨-, h⟩ := Option.ite_none_right_eq_some.mp h
      exact Option.some.inj h ▸ hmove _
  · exact Option.some.inj h ▸ .of_mount hmt ⟨rfl, rfl, fun _ _ => id⟩
  · exact Option.some.inj h ▸ .of_mount hmt ⟨rfl, rfl, fun _ _ => id⟩
  · obtain ⟨x, hx, rfl⟩ := Option.map_eq_some_iff.mp h
    split
    · exact hmove _
    · exact ⟨.ages hx (.of_pc rfl rfl id), (hmove _).mounts, rfl⟩
  · obtain ⟨x, hx, rfl⟩ := Option.map_eq_some_iff.mp h
    split
    · exact hmove _
    · exact .of_session hx x.ages_kick

/-- The connection of the client is closed. -/
def Closed (s : RoverState) (d : Client) : Prop :=
  ∃ x, s.sessions[d.ref]? = some x ∧ x.closeOnce = .connClosed

/-- Session `i` has been started and meets `p`. -/
def sessionIs (s : RoverState) (i : ℕ) (p : Session → Bool) : Bool := (s.sessions[i]?).any p

theorem closed_iff {d : Client} :
    s.Closed d ↔ s.sessionIs d.ref Session.connIsClosed = true := by
  unfold Closed sessionIs Session.connIsClosed
  rw [Option.any_eq_true]
  simp only [beq_iff_eq]

instance (s : RoverState) (d : Client) : Decidable (s.Closed d) :=
  decidable_of_iff _ closed_iff.symm

/-- Teardown `j` has still to kick the client. -/
def Kicking (s : RoverState) (j : ℕ) (d : Client) : Prop :=
  ∃ l, s.teardowns[j]? = some l ∧ d ∈ l

/-- What a step does to mountpoints and teardowns: it registers a client; it runs a critical
section and starts a teardown at its end; it takes a teardown on past a client that is closed; or
none of this. -/
inductive MountStep (s : RoverState) (a : RoverStep) : RoverState → Prop
  | keeps {s' : RoverState} (h : s.Keeps s') : MountStep s a s'
  | register {i : ℕ} {x : Session} {mt : Mount} {ord : RangeOrder Client} {r : WriteResult}
      {c : Client} {mp : MountPoint} (ha : a = .handler i ord r)
      (hx : s.sessions[i]? = some x) (hmt : s.mounts[x.mount]? = some mt)
      (hpc : x.pc = .addClient) (hc : newClient x mt.point = some c)
      (hadd : mt.point.addClient ord c = .ok mp) :
    MountStep s a ((s.setMount x.mount { mt with point := mp }).setSession i
      { x with client := c, pc := .add })
  | operate {m : ℕ} {op : CriticalSection} {mt : Mount} (ha : a = .operate m op)
      (hop : ∀ ord c, op ≠ .addClient ord c) (hmt : s.mounts[m]? = some mt) :
    MountStep s a { s.setMount m { mt with point := mt.point.apply op } with
      teardowns := s.teardowns ++ [(mt.point.teardown op).kick] }
  | next {j : ℕ} {c : Client} {rest : List Client} (ha : a = .teardown j)
      (hj : s.teardowns[j]? = some (c :: rest)) (hc : s.Closed c) :
    MountStep s a { s with teardowns := s.teardowns.set j rest }

/-- Of the steps of a handler only its registration adds to a mountpoint. -/
theorem handler_mountStep {i : ℕ} {ord : RangeOrder Client} {r : WriteResult}
    (h : s.handler i ord r = some s') : MountStep s (.handler i ord r) s' := by
  obtain ⟨x, hx, h⟩ := Option.bind_eq_some_iff.mp h
  obtain ⟨mt, hmt, h⟩ := Option.bind_eq_some_iff.mp h
  split at h
  · split at h
    · exact Option.some.inj h ▸ .keeps (.of_session hx (.of_pc rfl rfl nofun))
    · exact .keeps (reject_keeps hx h)
  · split at h
    · exact Option.some.inj h ▸ .keeps (.of_session hx (.of_pc rfl rfl nofun))
    · exact .keeps (reject_keeps hx h)
  · split at h
    · exact .keeps (reject_keeps hx h)
    · exact Option.some.inj h ▸ .keeps (.of_session hx (.of_pc rfl rfl nofun))
  next hpc =>
    obtain ⟨c, hc, h⟩ := Option.bind_eq_some_iff.mp h
    split at h
    next mp hadd => exact Option.some.inj h ▸ .register rfl hx hmt hpc hc hadd
    next => exact .keeps (reject_keeps hx h)
  · exact Option.some.inj h ▸ .keeps ⟨.ages hx (.of_pc rfl rfl nofun), .refl _, rfl⟩
  · obtain ⟨x', hx', rfl⟩ := Option.map_eq_some_iff.mp h
    exact .keeps (.of_session hx (Session.ages_respond hx'))
  · cases h

/-- Every step is one of these. -/
theorem step_mountStep {a : RoverStep} (h : s.step a = some s') : MountStep s a s' := by
  cases a with
  | connect mount id userID =>
    exact Option.some.inj h ▸ .keeps ⟨.connect mount id userID, .refl _, rfl⟩
  | handler i ord r => exact handler_mountStep h
  | writeLoop i case ord r => exact .keeps (writeLoop_keeps h)
  | watch i =>
    obtain ⟨x, hx, h⟩ := Option.bind_eq_some_iff.mp h
    obtain ⟨x', hx', rfl⟩ := Option.map_eq_some_iff.mp h
    exact .keeps (.of_session hx (Session.ages_watch hx'))
  | closeConn i =>
    obtain ⟨x, hx, h⟩ := Option.bind_eq_some_iff.mp h
    obtain ⟨x', hx', rfl⟩ := Option.map_eq_some_iff.mp h
    exact .keeps (.of_session hx (Session.ages_closeConn hx'))
  | operate m op =>
    simp only [step, operate] at h
    split at h
    · cases h
    next hop =>
      obtain ⟨mt, hmt, rfl⟩ := Option.map_eq_some_iff.mp h
      exact .operate rfl hop hmt
  | teardown j =>
    simp only [step, teardown] at h
    split at h
    next c rest hj =>
      obtain ⟨x, hx, rfl⟩ := Option.map_eq_some_iff.mp h
      split
      next hc => exact .next rfl hj ⟨x, hx, hc⟩
      next => exact .keeps (.of_session hx x.ages_kick)
    next => cases h
  | broadcast m pkt => exact .keeps (startBroadcast_keeps h)
  | deliver m case => exact .keeps (deliver_keeps h)

theorem step_sessions {a : RoverStep} (h : s.step a = some s') :
    SessionsAge s.sessions s'.sessions := by
  cases step_mountStep h with
  | keeps hk => exact hk.sessions
  | register ha hx hmt hpc hc hadd => exact .ages hx (.of_pc rfl rfl nofun)
  | operate ha hop hmt => exact .same
  | next ha hj hc => exact .same

theorem Closed.step {a : RoverStep} {d : Client} (hc : s.Closed d) (h : s.step a = some s') :
    s'.Closed d := by
  obtain ⟨x, hx, hcl⟩ := hc
  obtain ⟨x', hx', hage⟩ := (step_sessions h).exists_ages hx
  exact ⟨x', hx', hage.connClosed hcl⟩

/-- A client that teardown `j` has still to kick is in its list until it is closed. -/
theorem settled_step {a : RoverStep} {j : ℕ} {d : Client} (hd : s.Closed d ∨ s.Kicking j d)
    (h : s.step a = some s') : s'.Closed d ∨ s'.Kicking j d := by
  rcases hd with hd | ⟨l, hl, hdl⟩
  · exact .inl (hd.step h)
  · cases step_mountStep h with
    | keeps hk => exact .inr ⟨l, by rw [hk.teardowns]; exact hl, hdl⟩
    | register ha hx hmt hpc hc hadd => exact .inr ⟨l, hl, hdl⟩
    | operate ha hop hmt =>
      refine .inr ⟨l, ?_, hdl⟩
      exact getElem?_append_of_eq_some hl
    | @next k c rest ha hk hc =>
      by_cases hkj : k = j
      · subst hkj
        obtain rfl := Option.some.inj (hl.symm.trans hk)
        rcases List.mem_cons.mp hdl with rfl | hdl
        · exact .inl hc
        · exact .inr ⟨rest, getElem?_set_of_eq_some hl, hdl⟩
      · exact .inr ⟨l, (List.getElem?_set_ne hkj).trans hl, hdl⟩

/-- A teardown that is through has nobody to kick. -/
theorem not_kicking_nil {j : ℕ} (h : s.teardowns[j]? = some []) (d : Client) :
    ¬ s.Kicking j d := by
  rintro ⟨l, hl, hd⟩
  obtain rfl := Option.some.inj (h.symm.trans hl)
  cases hd

/-- With no teardown in progress, nobody has still to be kicked. -/
theorem not_kicking (h : ∀ l ∈ s.teardowns, l = []) (j : ℕ) (d : Client) : ¬ s.Kicking j d := by
  rintro ⟨l, hl, hd⟩
  rw [h l (List.mem_of_getElem? hl)] at hd
  cases hd

/-! ## What is registered on a mountpoint -/

/-- Every source registered on mountpoint `m` meets `S`, every client `C`. -/
def OnMount (s : RoverState) (m : ℕ) (S : SourceInfo → Prop) (C : Client → Prop) : Prop :=
  ∀ mt : Mount, s.mounts[m]? = some mt → (∀ src, mt.point.source = some src → S src) ∧
    ∀ id d, mt.point.clientsByID.lookup id = some d → C d

/-- The mountpoint of a critical section, after it. -/
theorem point_operate {m : ℕ} {op : CriticalSection} (h : s.step (.operate m op) = some s')
    {mt' : Mount} (hmt' : s'.mounts[m]? = some mt') :
    ∃ mt, s.mounts[m]? = some mt ∧ mt'.point = mt.point.apply op := by
  simp only [step, operate] at h
  split at h
  next => cases h
  next =>
    obtain ⟨mt, hmt, rfl⟩ := Option.map_eq_some_iff.mp h
    rcases getElem?_set_eq_some hmt' with ⟨-, rfl⟩ | ⟨hne, -⟩
    · exact ⟨mt, hmt, rfl⟩
    · exact absurd rfl hne

/-- The step makes the client `c` a client of mountpoint `m`. -/
def Joins (s : RoverState) (a : RoverStep) (m : ℕ) (c : Client) : Prop :=
  ∃ i ord r x mt mp, a = .handler i ord r ∧ s.sessions[i]? = some x ∧ x.pc = .addClient ∧
    x.mount = m ∧ s.mounts[m]? = some mt ∧ newClient x mt.point = some c ∧
      mt.point.addClient ord c = .ok mp

/-- Only the steps of handlers register clients. -/
theorem not_joins_operate {k m : ℕ} {op : CriticalSection} {c : Client} :
    ¬ s.Joins (.operate k op) m c := by
  rintro ⟨_, _, _, _, _, _, ha, -⟩
  cases ha

theorem not_joins_connect {k m : ℕ} {id : Bytes} {userID : ℤ} {c : Client} :
    ¬ s.Joins (.connect k id userID) m c := by
  rintro ⟨_, _, _, _, _, _, ha, -⟩
  cases ha

/-- The session whose client the step registers, if it does. -/
def joining (s : RoverState) : RoverStep → Option Session
  | .handler i _ _ =>
    (s.sessions[i]?).bind fun x =>
      (s.mounts[x.mount]?).bind fun mt =>
        if x.pc = .addClient ∧
            ¬ (0 < mt.point.maxClients ∧ mt.point.maxClients ≤ mt.point.clientsByID.len) then
          some x
        else none
  | _ => none

theorem Joins.joining {a : RoverStep} {m : ℕ} {c : Client} (h : s.Joins a m c) :
    ∃ x, s.joining a = some x ∧ x.mount = m ∧ x.client.userID = c.userID := by
  obtain ⟨i, ord, r, x, mt, mp, rfl, hx, hpc, rfl, hmt, hc, hadd⟩ := h
  have hroom : ¬ (0 < mt.point.maxClients ∧ mt.point.maxClients ≤ mt.point.clientsByID.len) := by
    intro hfull
    rw [MountPoint.addClient, if_pos hfull] at hadd
    cases hadd
  refine ⟨x, ?_, rfl, ?_⟩
  · rw [RoverState.joining, hx, Option.bind_some, hmt, Option.bind_some, if_pos ⟨hpc, hroom⟩]
  · obtain ⟨-, hc⟩ := Option.ite_none_right_eq_some.mp hc
    exact Option.some.inj hc ▸ rfl

/-- What holds of everything on a mountpoint holds after a step if it holds of what the step
registers there. -/
theorem OnMount.step {m : ℕ} {S : SourceInfo → Prop} {C C' : Client → Prop}
    (h : s.OnMount m S C) {a : RoverStep} (hstep : s.step a = some s') (hC : ∀ d, C d → C' d)
    (hjoin : ∀ c, s.Joins a m c → C' c) (hset : ∀ src, a = .operate m (.setSource src) → S src) :
    s'.OnMount m S C' := by
  -- nobody new
  have hold : ∀ mt : Mount, s.mounts[m]? = some mt → (∀ src, mt.point.source = some src → S src) ∧
      ∀ id d, mt.point.clientsByID.lookup id = some d → C' d :=
    fun mt hmt => ⟨(h mt hmt).1, fun id d hd => hC d ((h mt hmt).2 id d hd)⟩
  intro mt' hmt'
  cases step_mountStep hstep with
  | keeps hk =>
    obtain ⟨mt, hmt, hl⟩ := hk.mounts m mt' hmt'
    exact ⟨fun src hsrc => (hold mt hmt).1 src (hl.source ▸ hsrc),
      fun id d hd => (hold mt hmt).2 id d (hl.lookup id d hd)⟩
  | @register i x mt ord r c mp ha hx hmt hpc hc hadd =>
    rcases getElem?_set_eq_some hmt' with ⟨rfl, rfl⟩ | ⟨-, hmt'⟩
    · refine ⟨fun src hsrc => (hold mt hmt).1 src (MountPoint.addClient_source hadd ▸ hsrc),
        fun id d hd => ?_⟩
      rcases MountPoint.lookup_addClient hadd hd with rfl | hd
      · exact hjoin d ⟨i, ord, r, x, mt, mp, ha, hx, hpc, rfl, hmt, hc, hadd⟩
      · exact (hold mt hmt).2 id d hd
    · exact hold mt' hmt'
  | @operate k op mt ha hop hmt =>
    rcases getElem?_set_eq_some hmt' with ⟨rfl, rfl⟩ | ⟨-, hmt'⟩
    · refine ⟨fun src hsrc => ?_,
        fun id d hd => (hold mt hmt).2 id d (MountPoint.lookup_apply hop hd)⟩
      rcases MountPoint.source_apply hsrc with hsrc | rfl
      · exact (hold mt hmt).1 src hsrc
      · exact hset src ha
    · exact hold mt' hmt'
  | next ha hj hc => exact hold mt' hmt'

end RoverState

end NtripCaster
