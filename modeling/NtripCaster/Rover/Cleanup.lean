import NtripCaster.Rover.Capacity
import NtripCaster.Rover.Teardown

/-!
# The end of a rover session

A session can be ended by its peer, by a write that fails, by a slow connection or by an operation
on its mountpoint, several of them at once and before its write loop starts. However it ends,
`CloseOnce` runs once, the deferred calls of the write loop take the client off its mountpoint,
and the limiter counts it no more.

## Main definitions

* `RoverState.closesDone`, `RoverState.closesConn`, `RoverState.releases`: what a step does to one
  session

## Main results

* `RoverState.count_closesDone`, `count_closesConn`, `count_releases`: how often this happens
* `rover_cleanup`: a session is cleaned up once
-/

namespace NtripCaster

open Transition

namespace RoverPC

/-- `Release` has returned. -/
def isFinished : RoverPC → Bool
  | finished => true
  | _ => false

theorem isFinished_eq (pc : RoverPC) :
    pc.isFinished = (pc.admitted && !pc.registered && !pc.counted) := by
  cases pc <;> rfl

theorem isFinished_congr {pc pc' : RoverPC} (hadm : pc'.admitted = pc.admitted)
    (hreg : pc'.registered = pc.registered) (hcounted : pc'.counted = pc.counted) :
    pc'.isFinished = pc.isFinished := by
  rw [isFinished_eq, isFinished_eq, hadm, hreg, hcounted]

end RoverPC

namespace Session

/-- The write loop goroutine has ended. -/
def isFinished (x : Session) : Bool := x.pc.isFinished

end Session

namespace RoverState

variable {s s' : RoverState} {a : RoverStep} {i j : ℕ} {x x' : Session}

/-- The step closes `Done` of session `i`. -/
def closesDone (i : ℕ) (s s' : RoverState) : Bool :=
  !s.sessionIs i Session.isDone && s'.sessionIs i Session.isDone

/-- The step closes the connection of session `i`, from `CloseOnce`. -/
def closesConn (i : ℕ) (s s' : RoverState) : Bool :=
  !s.sessionIs i Session.connIsClosed && s'.sessionIs i Session.connIsClosed

/-- The step is `Release` at the end of session `i`. -/
def releases (i : ℕ) (s s' : RoverState) : Bool :=
  s.sessionIs i (fun x => x.pc = .release) && s'.sessionIs i Session.isFinished &&
    decide (s'.limiter = s.limiter.release)

theorem sessionIs_of_getElem? {p : Session → Bool} (hx : s.sessions[i]? = some x) :
    s.sessionIs i p = p x := by
  rw [sessionIs, hx]
  rfl

/-! ## `CloseOnce` -/

/-- A property that ageing keeps holds of a session for good. -/
theorem sessionIs_step {p : Session → Bool}
    (hp : ∀ x x' : Session, x.Ages x' → p x = true → p x' = true) (h : s.step a = some s')
    (hs : s.sessionIs i p = true) : s'.sessionIs i p = true := by
  obtain ⟨x, hx, hpx⟩ := (Option.any_eq_true _ _).mp hs
  obtain ⟨x', hx', hage⟩ := (step_sessions h).exists_ages hx
  rw [sessionIs_of_getElem? hx']
  exact hp x x' hage hpx

theorem isDone_step (h : s.step a = some s') (hs : s.sessionIs i Session.isDone = true) :
    s'.sessionIs i Session.isDone = true :=
  sessionIs_step (fun _ _ hage => hage.isDone) h hs

theorem connIsClosed_step (h : s.step a = some s')
    (hs : s.sessionIs i Session.connIsClosed = true) :
    s'.sessionIs i Session.connIsClosed = true := by
  refine sessionIs_step (fun x x' hage hx => ?_) h hs
  exact beq_iff_eq.mpr (hage.connClosed (beq_iff_eq.mp hx))

variable {maxClients : ℤ} {as : List RoverStep}

/-- At the start there are no sessions. -/
theorem sessionIs_init (h : (roverSystem maxClients).init s) (i : ℕ) (p : Session → Bool) :
    s.sessionIs i p = false := by
  obtain ⟨mounts, -, rfl⟩ := h
  rfl

/-- `Done` is closed by one step if it is closed, and by none if it is open. -/
theorem count_closesDone (h : (roverSystem maxClients).init s)
    (hr : (roverSystem maxClients).run s as = some s') (i : ℕ) :
    (roverSystem maxClients).count (closesDone i) s as =
      (s'.sessionIs i Session.isDone).toNat :=
  System.count_rises (fun _ _ _ _ hstep => isDone_step hstep) (.init h) (sessionIs_init h i _) hr

theorem count_closesConn (h : (roverSystem maxClients).init s)
    (hr : (roverSystem maxClients).run s as = some s') (i : ℕ) :
    (roverSystem maxClients).count (closesConn i) s as =
      (s'.sessionIs i Session.connIsClosed).toNat :=
  System.count_rises (fun _ _ _ _ hstep => connIsClosed_step hstep) (.init h)
    (sessionIs_init h i _) hr

/-! ## `Release` -/

/-- After a move of session `j`, the other sessions are as before. -/
theorem sessionIs_set {p : Session → Bool} (hx : s.sessions[j]? = some x)
    (hs : s'.sessions = s.sessions.set j x') (i : ℕ) :
    s'.sessionIs i p = if i = j then p x' else s.sessionIs i p := by
  unfold sessionIs
  rw [hs]
  split
  next hij =>
    subst hij
    rw [getElem?_set_of_eq_some hx]
    rfl
  next hij => rw [List.getElem?_set_ne fun hji => hij hji.symm]

theorem isFinished_set (hx : s.sessions[j]? = some x) (hs : s'.sessions = s.sessions.set j x')
    (hfin : x'.isFinished = x.isFinished) (i : ℕ) :
    s'.sessionIs i Session.isFinished = s.sessionIs i Session.isFinished := by
  rw [sessionIs_set hx hs]
  split
  next hij =>
    subst hij
    rw [hfin, sessionIs_of_getElem? hx]
  next => rfl

/-- A session that finishes has executed `Release` in this step, and no other way. -/
theorem isFinished_effect (he : RoverEffect s a s') (i : ℕ) :
    s'.sessionIs i Session.isFinished = s.sessionIs i Session.isFinished ∨
      s.sessionIs i Session.isFinished = false ∧ releases i s s' = true := by
  cases he with
  | connect mount id userID =>
    left
    unfold sessionIs
    rw [List.getElem?_append]
    split
    next => rfl
    next hlt =>
      rw [List.getElem?_singleton, List.getElem?_eq_none (Nat.le_of_not_lt hlt)]
      split <;> rfl
  | moves hx hmove =>
    exact .inl (isFinished_set hx rfl
      (RoverPC.isFinished_congr hmove.admitted hmove.registered hmove.counted) i)
  | teardowns t => exact .inl rfl
  | addClient ha hx hmt hpc hc hadd =>
    exact .inl (isFinished_set hx rfl (by rw [Session.isFinished, Session.isFinished, hpc]; rfl) i)
  | add hx hpc =>
    exact .inl (isFinished_set hx rfl (by rw [Session.isFinished, Session.isFinished, hpc]; rfl) i)
  | removeClient ord hx hmt hpc =>
    exact .inl (isFinished_set hx rfl (by rw [Session.isFinished, Session.isFinished, hpc]; rfl) i)
  | @release j x hx hpc =>
    by_cases hij : i = j
    · subst hij
      refine .inr ⟨?_, ?_⟩
      · rw [sessionIs_of_getElem? hx, Session.isFinished, hpc]
        rfl
      · unfold releases
        rw [sessionIs_of_getElem? hx, sessionIs_set hx rfl, if_pos rfl, hpc]
        simp [Session.isFinished, RoverPC.isFinished]
    · left
      rw [sessionIs_set hx rfl, if_neg hij]
  | operate t hmt hop => exact .inl rfl
  | broadcast pkt hmt hpc => exact .inl rfl
  | finish hmt hpc => exact .inl rfl
  | enter hmt hpc hx hdone => exact .inl rfl
  | skip hmt hpc hx hdone => exact .inl rfl
  | accept hmt hpc hx hacc =>
    exact .inl (isFinished_set hx rfl
      (RoverPC.isFinished_congr hacc.admitted hacc.registered hacc.counted) i)
  | refuse hmt hpc => exact .inl rfl
  | slowClients n hmt hpc => exact .inl rfl
  | kickCount hmt hpc => exact .inl rfl
  | @markSlow m mt pkt c todo x hmt hpc hx hslow =>
    have hset : ((s.setBroadcast m mt (.kick pkt c todo)).setSession c.ref
        { x with slow := true }).sessions = s.sessions.set c.ref { x with slow := true } := rfl
    exact .inl (isFinished_set hx hset rfl i)

/-- `Release` is executed while the session is not finished, and it is afterwards. -/
theorem of_releases (h : releases i s s' = true) :
    s.sessionIs i Session.isFinished = false ∧ s'.sessionIs i Session.isFinished = true := by
  obtain ⟨⟨hrel, hfin⟩, -⟩ := by simpa [releases] using h
  refine ⟨?_, hfin⟩
  obtain ⟨x, hx, hpc⟩ := (Option.any_eq_true _ _).mp hrel
  rw [sessionIs_of_getElem? hx, Session.isFinished, of_decide_eq_true hpc]
  rfl

/-- `Release` is executed once for a session whose write loop has ended, and not at all for the
others. -/
theorem count_releases (h : (roverSystem maxClients).init s)
    (hr : (roverSystem maxClients).run s as = some s') (i : ℕ) :
    (roverSystem maxClients).count (releases i) s as =
      (s'.sessionIs i Session.isFinished).toNat := by
  have heq := System.count_eq (S := roverSystem maxClients) (p := releases i)
    (f := fun s => (s.sessionIs i Session.isFinished).toNat) (fun t a t' _ hstep => ?_) (.init h) hr
  · simpa [sessionIs_init h i Session.isFinished] using heq.symm
  · rcases isFinished_effect (step_effect hstep) i with hsame | ⟨hbefore, hrel⟩
    · -- nothing changes, so it was not executed
      have hnot : releases i t t' = false := by
        by_contra hrel
        obtain ⟨h₁, h₂⟩ := of_releases (Bool.not_eq_false _ ▸ hrel)
        rw [hsame, h₁] at h₂
        cases h₂
      simp [hsame, hnot]
    · simp [hbefore, hrel, (of_releases hrel).2]

/-! ## The limiter -/

/-- Every effect keeps the limiter at the number of sessions between `Add` and `Release`. -/
theorem count_effect (he : RoverEffect s a s') (h : s.limiter.count = s.counted) :
    s'.limiter.count = s'.counted := by
  -- a session moves and the limiter follows
  have hmove : ∀ {j : ℕ} {x x' : Session}, s.sessions[j]? = some x →
      s'.sessions = s.sessions.set j x' →
      s'.limiter.count + x.pc.counted.toNat = s.limiter.count + x'.pc.counted.toNat →
        s'.limiter.count = s'.counted := by
    intro j x x' hx hs hl
    have hc : s'.counted + x.pc.counted.toNat = s.counted + x'.pc.counted.toNat :=
      (congrArg (List.countP _ · + _) hs).trans (countP_set (fun x : Session => x.pc.counted) hx)
    omega
  cases he with
  | connect mount id userID =>
    simpa [RoverState.counted, newSession, RoverPC.counted] using h
  | moves hx hm => exact hmove hx rfl (by rw [hm.counted]; rfl)
  | teardowns t => exact h
  | addClient ha hx hmt hpc hc hadd => exact hmove hx rfl (by rw [hpc]; rfl)
  | add hx hpc =>
    refine hmove hx rfl ?_
    simp [hpc, RoverPC.counted, GlobalLimiter.add]
  | removeClient ord hx hmt hpc => exact hmove hx rfl (by rw [hpc]; rfl)
  | release hx hpc =>
    refine hmove hx rfl ?_
    simp [hpc, RoverPC.counted, GlobalLimiter.release]
  | operate t hmt hop => exact h
  | broadcast pkt hmt hpc => exact h
  | finish hmt hpc => exact h
  | enter hmt hpc hx hdone => exact h
  | skip hmt hpc hx hdone => exact h
  | accept hmt hpc hx hacc => exact hmove hx rfl (by rw [hacc.counted]; rfl)
  | refuse hmt hpc => exact h
  | slowClients n hmt hpc => exact h
  | kickCount hmt hpc => exact h
  | @markSlow m mt pkt c todo x hmt hpc hx hslow =>
    exact hmove hx (show _ = s.sessions.set _ { x with slow := true } from rfl) rfl

/-- The limiter counts the sessions that have executed `Add` and not yet `Release`. -/
theorem limiter_count (h : (roverSystem maxClients).Reachable s) :
    s.limiter.count = s.counted := by
  refine h.invariant (I := fun s => s.limiter.count = s.counted) ?_
    fun s a s' _ hs hstep => count_effect (step_effect hstep) hs
  rintro s ⟨mounts, -, rfl⟩
  rfl

theorem sessions_ended (h : (roverSystem maxClients).Reachable s) :
    ∀ x ∈ s.sessions, x.Ended := by
  refine h.invariant (I := fun s => ∀ x ∈ s.sessions, x.Ended) ?_
    fun s a s' _ hs hstep => (step_sessions hstep).ended hs
  rintro s ⟨mounts, -, rfl⟩
  simp

/-! ## The mountpoint -/

/-- A client whose session is registered no more is in no snapshot under its ID, if the IDs are
distinct. -/
theorem id_ne_of_unregistered (hknown : Known s.mounts s.sessions)
    (hids : (s.sessions.map fun x => x.client.id).Nodup) (hx : s.sessions[i]? = some x)
    (hreg : x.pc.registered = false) {m : ℕ} {mt : Mount} (hmt : s.mounts[m]? = some mt)
    {d : Client} (hd : d ∈ mt.point.snapshot) : d.id ≠ x.client.id := by
  intro hid
  obtain ⟨y, hy, rfl, -, hr⟩ := hknown.snapshot m mt hmt d hd
  have hxy : y = x := List.inj_on_of_nodup_map hids (List.mem_of_getElem? hy)
    (List.mem_of_getElem? hx) hid
  rw [hxy, hreg] at hr
  cases hr

/-- So it is not in the map either. -/
theorem lookup_of_unregistered (hknown : Known s.mounts s.sessions)
    (hids : (s.sessions.map fun x => x.client.id).Nodup) (hx : s.sessions[i]? = some x)
    (hreg : x.pc.registered = false) {m : ℕ} {mt : Mount} (hmt : s.mounts[m]? = some mt) :
    mt.point.clientsByID.lookup x.client.id = none := by
  cases hl : mt.point.clientsByID.lookup x.client.id with
  | none => rfl
  | some d =>
    have hrep := hknown.rep m mt hmt
    have hid := hrep.own_id _ _ hl
    have hd : d ∈ mt.point.snapshot := hrep.mem_snapshot.mpr (hid ▸ hl)
    exact absurd hid (id_ne_of_unregistered hknown hids hx hreg hmt hd)

end RoverState

open RoverState

/-- **A rover session is cleaned up once**: in every run, `CloseOnce` closes the `Done` channel and
then the connection of a session at most once each, and both unless its function is just running;
once the write loop has ended, `Done` is closed, the client is off its mountpoint, and the limiter
has been decremented once for it; and the limiter counts the sessions between `Add` and
`Release`. -/
theorem rover_cleanup {maxClients : ℤ} {s s' : RoverState} {as : List RoverStep}
    (hinit : (roverSystem maxClients).init s)
    (hrun : (roverSystem maxClients).run s as = some s')
    (hids : (s'.sessions.map fun x => x.client.id).Nodup) :
    (∀ i x, s'.sessions[i]? = some x →
      (roverSystem maxClients).count (closesDone i) s as ≤ 1 ∧
      (roverSystem maxClients).count (closesConn i) s as ≤
        (roverSystem maxClients).count (closesDone i) s as ∧
      (x.closeOnce ≠ .doneClosed → (roverSystem maxClients).count (closesConn i) s as =
        (roverSystem maxClients).count (closesDone i) s as) ∧
      (x.pc = .finished → x.isDone = true ∧
        (roverSystem maxClients).count (closesDone i) s as = 1 ∧
        (roverSystem maxClients).count (releases i) s as = 1 ∧
        ∀ mt, s'.mounts[x.mount]? = some mt →
          mt.point.clientsByID.lookup x.client.id = none ∧
            ∀ d ∈ mt.point.snapshot, d.id ≠ x.client.id)) ∧
      0 ≤ s'.limiter.count ∧ s'.limiter.count = s'.counted := by
  have hreach : (roverSystem maxClients).Reachable s' := .of_run as hinit hrun
  have hcount := limiter_count hreach
  refine ⟨fun i x hx => ?_, by omega, hcount⟩
  rw [count_closesDone hinit hrun, count_closesConn hinit hrun, count_releases hinit hrun,
    sessionIs_of_getElem? hx, sessionIs_of_getElem? hx, sessionIs_of_getElem? hx]
  refine ⟨Bool.toNat_le _, ?_, ?_, fun hpc => ?_⟩
  · unfold Session.connIsClosed Session.isDone
    cases x.closeOnce <;> decide
  · unfold Session.connIsClosed Session.isDone
    cases x.closeOnce <;> decide
  · have hdone : x.isDone = true :=
      (sessions_ended hreach x (List.mem_of_getElem? hx)).leaving (by rw [hpc]; rfl)
    have hreg : x.pc.registered = false := by rw [hpc]; rfl
    have hknown := roverSystem_known hreach
    refine ⟨hdone, by rw [hdone]; rfl, ?_, fun mt hmt => ⟨?_, fun d hd => ?_⟩⟩
    · rw [Session.isFinished, hpc]
      rfl
    · exact lookup_of_unregistered hknown hids hx hreg hmt
    · exact id_ne_of_unregistered hknown hids hx hreg hmt hd

/-- A rover is served, its mountpoint is disconnected while its peer hangs up, and its write loop
ends. -/
def servedAndKicked : List RoverStep :=
  [.operate 0 (.setSource ⟨0, ascii "s", 0⟩), .connect 0 (ascii "a") 0] ++
    List.replicate 6 (.handler 0 .stored .ok) ++
    [.operate 0 (.disconnectAll .stored), .watch 0, .teardown 1, .closeConn 0, .teardown 1] ++
    List.replicate 3 (.writeLoop 0 .done .stored .ok)

theorem rover_cleanup_servedAndKicked :
    ∃ s', (roverSystem 1).run (oneMount 1) servedAndKicked = some s' ∧
      (∃ x, s'.sessions[0]? = some x ∧ x.pc = .finished) ∧
      (∀ i x, s'.sessions[i]? = some x →
        (roverSystem 1).count (closesDone i) (oneMount 1) servedAndKicked ≤ 1 ∧
        (roverSystem 1).count (closesConn i) (oneMount 1) servedAndKicked ≤
          (roverSystem 1).count (closesDone i) (oneMount 1) servedAndKicked ∧
        (x.closeOnce ≠ .doneClosed →
          (roverSystem 1).count (closesConn i) (oneMount 1) servedAndKicked =
            (roverSystem 1).count (closesDone i) (oneMount 1) servedAndKicked) ∧
        (x.pc = .finished → x.isDone = true ∧
          (roverSystem 1).count (closesDone i) (oneMount 1) servedAndKicked = 1 ∧
          (roverSystem 1).count (releases i) (oneMount 1) servedAndKicked = 1 ∧
          ∀ mt, s'.mounts[x.mount]? = some mt →
            mt.point.clientsByID.lookup x.client.id = none ∧
              ∀ d ∈ mt.point.snapshot, d.id ≠ x.client.id)) ∧
      0 ≤ s'.limiter.count ∧ s'.limiter.count = s'.counted := by
  obtain ⟨s', hrun, hfin, hids⟩ : ∃ s', (roverSystem 1).run (oneMount 1) servedAndKicked = some s' ∧
      (∃ x, s'.sessions[0]? = some x ∧ x.pc = .finished) ∧
      (s'.sessions.map fun x => x.client.id).Nodup :=
    ⟨_, rfl, ⟨_, rfl, rfl⟩, List.nodup_singleton _⟩
  exact ⟨s', hrun, hfin, rover_cleanup (oneMount_init 1) hrun hids⟩

end NtripCaster
