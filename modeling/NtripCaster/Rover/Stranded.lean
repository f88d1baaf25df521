import NtripCaster.Rover.Teardown

/-!
# Rovers on a mountpoint without a source

A rover is only served while a source is connected: `handleRover` refuses it otherwise, and
whoever takes the source off kicks the rovers it finds. The check of the handler and the
registration are two critical sections, so a rover can be registered after the clients to kick
were collected; nobody will close it.

## Main definitions

* `RoverState.Settled`: a client is closed or will be
* `RegistersHeard`: the condition on a step
* `NobodyWaits`: in a quiet state, rovers without a source are closed

## Main results

* `MountPoint.kick_of_source_none`: a mountpoint that loses its source kicks all its clients
* `nobody_waits`: nobody waits, under the condition
* `nobody_waits_not`: a rover that is registered too late
-/

namespace NtripCaster

open Transition

/-- A critical section after which there is no source found none, or kicks every client that it
leaves registered. -/
theorem MountPoint.kick_of_source_none {m : MountPoint} {op : CriticalSection}
    (hop : ∀ ord c, op ≠ .addClient ord c) (hsrc : (m.apply op).source = none) {id : Bytes}
    {d : Client} (hd : (m.apply op).clientsByID.lookup id = some d) :
    m.source = none ∨ d ∈ (m.teardown op).kick := by
  have hmem : ∀ ord : RangeOrder Client, d ∈ ord.visit m.clientsByID.values := fun ord =>
    ord.mem_visit.mpr (GoMap.mem_values.mpr ⟨id, lookup_apply hop hd⟩)
  cases op with
  | setSource info =>
    -- there is a source afterwards, the new one or the old one
    simp only [MountPoint.apply, MountPoint.setSource] at hsrc
    split at hsrc
    · exact .inl hsrc
    · cases hsrc
  | clearSource ord srcID =>
    simp only [MountPoint.apply, MountPoint.teardown, MountPoint.clearSource] at hsrc ⊢
    split
    next hnone => exact .inl hnone
    next src hsome =>
      rw [hsome] at hsrc
      dsimp only at hsrc
      split at hsrc
      · rw [hsome] at hsrc
        cases hsrc
      next hid =>
        rw [if_neg hid]
        exact .inr (hmem ord)
  | addClient ord c => exact absurd rfl (hop ord c)
  | removeClient ord id' =>
    left
    simp only [MountPoint.apply, MountPoint.removeClient] at hsrc
    split at hsrc <;> exact hsrc
  | kickClient ord id' =>
    left
    simp only [MountPoint.apply, MountPoint.kickClient] at hsrc
    split at hsrc <;> exact hsrc
  | kickClientsByUser ord ord' userID =>
    left
    simp only [MountPoint.apply, MountPoint.kickClientsByUser] at hsrc
    split at hsrc <;> exact hsrc
  | kickSourceByUser ord ord' userID =>
    simp only [MountPoint.apply, MountPoint.teardown, MountPoint.kickSourceByUser] at hsrc ⊢
    split
    next hnone => exact .inl hnone
    next src hsome =>
      rw [hsome] at hsrc
      dsimp only at hsrc
      split at hsrc
      · rw [hsome] at hsrc
        cases hsrc
      next hid =>
        rw [if_neg hid]
        exact .inr (hmem ord)
  | disconnectAll ord => exact .inr (hmem ord)
  | update description format enabled writeQueue writeTimeout maxClients => exact .inl hsrc

namespace RoverState

variable {s s' : RoverState} {a : RoverStep} {d : Client}

/-- The client is closed, or some teardown has still to kick it. -/
def Settled (s : RoverState) (d : Client) : Prop := s.Closed d ∨ ∃ j, s.Kicking j d

theorem Settled.step (hd : s.Settled d) (h : s.step a = some s') : s'.Settled d := by
  rcases hd with hd | ⟨j, hd⟩
  · exact .inl (hd.step h)
  · exact (settled_step (.inr hd) h).imp_right fun hk => ⟨j, hk⟩

/-- On a mountpoint without a source, every client is closed or will be. -/
def SilentSettled (s : RoverState) : Prop :=
  ∀ (m : ℕ) (mt : Mount), s.mounts[m]? = some mt → mt.point.source = none →
    ∀ id d, mt.point.clientsByID.lookup id = some d → s.Settled d

end RoverState

open RoverState

/-- The condition on a step: when a handler registers its client, the mountpoint has a source. -/
def RegistersHeard (s : RoverState) : RoverStep → Prop
  | .handler i _ _ => ∀ x ∈ s.sessions[i]?, x.pc = .addClient → ∀ mt ∈ s.mounts[x.mount]?,
    mt.point.hasSource = true ∨
      0 < mt.point.maxClients ∧ mt.point.maxClients ≤ mt.point.clientsByID.len
  | _ => True

instance (s : RoverState) (a : RoverStep) : Decidable (RegistersHeard s a) :=
  match a with
  | .handler i _ _ => inferInstanceAs (Decidable (∀ x ∈ s.sessions[i]?, x.pc = .addClient →
      ∀ mt ∈ s.mounts[x.mount]?, mt.point.hasSource = true ∨
        0 < mt.point.maxClients ∧ mt.point.maxClients ≤ mt.point.clientsByID.len))
  | .connect .. | .writeLoop .. | .watch .. | .closeConn .. | .operate .. | .teardown ..
  | .broadcast .. | .deliver .. => .isTrue trivial

/-- Who registers does so under a source; where a source goes, a teardown kicks the clients. -/
theorem RoverState.SilentSettled.step {s s' : RoverState} {a : RoverStep} (h : s.SilentSettled)
    (hguard : RegistersHeard s a) (hstep : s.step a = some s') : s'.SilentSettled := by
  -- a client that was there on a mountpoint without a source stays settled
  have hold : ∀ {m : ℕ} {mt : Mount} {id : Bytes} {d : Client}, s.mounts[m]? = some mt →
      mt.point.source = none → mt.point.clientsByID.lookup id = some d → s'.Settled d :=
    fun hmt hsrc hd => (h _ _ hmt hsrc _ _ hd).step hstep
  intro m mt' hmt' hsrc id d hd
  cases step_mountStep hstep with
  | keeps hk =>
    obtain ⟨mt, hmt, hl⟩ := hk.mounts m mt' hmt'
    exact hold hmt (hl.source ▸ hsrc) (hl.lookup id d hd)
  | @register i x mt ord r c mp ha hx hmt hpc hc hadd =>
    rcases getElem?_set_eq_some hmt' with ⟨rfl, rfl⟩ | ⟨-, hmt'⟩
    · rw [MountPoint.addClient_source hadd] at hsrc
      rw [ha] at hguard
      rcases hguard x hx hpc mt hmt with hheard | hfull
      · rw [MountPoint.hasSource, hsrc] at hheard
        cases hheard
      · rw [MountPoint.addClient, if_pos hfull] at hadd
        cases hadd
    · exact hold hmt' hsrc hd
  | @operate k op mt ha hop hmt =>
    rcases getElem?_set_eq_some hmt' with ⟨rfl, rfl⟩ | ⟨-, hmt'⟩
    · rcases MountPoint.kick_of_source_none hop hsrc hd with hnone | hkick
      · exact hold hmt hnone (MountPoint.lookup_apply hop hd)
      · -- the teardown that starts kicks it
        exact .inr ⟨_, _, List.getElem?_concat_length, hkick⟩
    · exact hold hmt' hsrc hd
  | next ha hj hc => exact hold hmt' hsrc hd

/-- With no handshake and no teardown in progress, every client of a mountpoint without a source
has its `Done` channel closed. -/
def NobodyWaits (s : RoverState) : Prop :=
  (∀ x ∈ s.sessions, x.pc.unwritten = false) → (∀ l ∈ s.teardowns, l = []) →
    ∀ mt ∈ s.mounts, mt.point.source = none → ∀ id d, mt.point.clientsByID.lookup id = some d →
      ∃ x, s.sessions[d.ref]? = some x ∧ x.isDone = true

/-- **No rover is left waiting on a mountpoint without a source** in a run in which every handler
that registers its client does so while the mountpoint has a source. -/
theorem nobody_waits {maxClients : ℤ} {s : RoverState}
    (h : ((roverSystem maxClients).restrict RegistersHeard).Reachable s) : NobodyWaits s := by
  have hsettled : s.SilentSettled := by
    refine System.Reachable.restrict_invariant ?_ (fun s a s' _ hs hguard hstep => ?_) h
    · rintro s ⟨mounts, hfresh, rfl⟩ m mt hmt - id d hd
      obtain ⟨_, _, _, _, _, _, rfl⟩ := hfresh mt (List.mem_of_getElem? hmt)
      simp [newMountPoint] at hd
    · exact hs.step hguard hstep
  intro _ hteardowns mt hmt hsrc id d hd
  obtain ⟨m, hm⟩ := List.getElem?_of_mem hmt
  rcases hsettled m mt hm hsrc id d hd with ⟨x, hx, hc⟩ | ⟨j, hk⟩
  · exact ⟨x, hx, by simp [Session.isDone, hc]⟩
  · exact absurd hk (not_kicking hteardowns j d)

/-- A rover has passed the checks of its handler. -/
def checkedRover : List RoverStep :=
  [.operate 0 (.setSource ⟨0, ascii "s", 0⟩), .connect 0 (ascii "a") 0] ++
    List.replicate 3 (.handler 0 .stored .ok)

/-- The rover is registered and served, and kicked when the source goes. -/
theorem nobody_waits_inTime :
    ∃ s, ((roverSystem 1).restrict RegistersHeard).run (oneMount 1)
        (checkedRover ++ List.replicate 3 (.handler 0 .stored .ok) ++
          [.operate 0 (.clearSource .stored (ascii "s")), .teardown 1, .closeConn 0,
            .teardown 1]) = some s ∧ NobodyWaits s := by
  obtain ⟨s, hs⟩ : ∃ s, ((roverSystem 1).restrict RegistersHeard).run (oneMount 1)
      (checkedRover ++ List.replicate 3 (.handler 0 .stored .ok) ++
        [.operate 0 (.clearSource .stored (ascii "s")), .teardown 1, .closeConn 0,
          .teardown 1]) = some s := ⟨_, rfl⟩
  exact ⟨s, hs, nobody_waits (.of_run _ (oneMount_init 1) hs)⟩

/-- The source goes between the checks of the handler and `AddClient`: the rover is answered and
stays. -/
theorem nobody_waits_not :
    ¬ ∀ (maxClients : ℤ) (s : RoverState), (roverSystem maxClients).Reachable s →
      NobodyWaits s := by
  intro hall
  obtain ⟨s, hs, hquiet, hteardowns, mt, hmt, hsrc, d, hd, x, hx, hopen⟩ :
      ∃ s, (roverSystem 1).run (oneMount 1)
          (checkedRover ++ [.operate 0 (.clearSource .stored (ascii "s"))] ++
            List.replicate 3 (.handler 0 .stored .ok)) = some s ∧
        s.sessions.all (fun x => !x.pc.unwritten) = true ∧ s.teardowns.all List.isEmpty = true ∧
        ∃ mt ∈ s.mounts, mt.point.source = none ∧ ∃ d,
          mt.point.clientsByID.lookup (ascii "a") = some d ∧ ∃ x,
            s.sessions[d.ref]? = some x ∧ x.isDone = false :=
    ⟨_, rfl, rfl, rfl, _, .head _, rfl, _, rfl, _, rfl, rfl⟩
  obtain ⟨y, hy, hdone⟩ := hall 1 s (.of_run _ (oneMount_init 1) hs)
    (by simpa using hquiet) (by simpa using hteardowns) mt hmt hsrc (ascii "a") d hd
  rw [hx] at hy
  obtain rfl := Option.some.inj hy
  rw [hopen] at hdone
  cases hdone

end NtripCaster
