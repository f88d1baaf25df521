import NtripCaster.Rover.System

/-!
# Registered sessions

Which session a client in a mountpoint's snapshot belongs to: one that was accepted by
`AddClient` of that mountpoint and has not called `RemoveClient` yet.

## Main definitions

* `Registered`: a client belongs to a registered session of a mountpoint
* `Known`: so does every client in a snapshot
* `RoverState.StartsNothing`: no session is started and no packet is broadcast

## Main results

* `Known.effect`: every effect keeps this
* `roverSystem_known`: it holds in every reachable state
* `RoverState.startsNothing_step`: all steps but `connect` and `Broadcast`
* `RoverState.client_of_step`: a session carries the object and the user it was started with
-/

namespace NtripCaster

open Transition RoverState

/-- The client `d` belongs to a registered session of mountpoint `m`. -/
def Registered (sessions : List Session) (m : ℕ) (d : Client) : Prop :=
  ∃ x, sessions[d.ref]? = some x ∧ x.client = d ∧ x.mount = m ∧ x.pc.registered = true

/-- The representation invariant of every mountpoint, and the sessions behind its snapshot. -/
structure Known (mounts : List Mount) (sessions : List Session) : Prop where
  ref : ∀ (i : ℕ) (x : Session), sessions[i]? = some x → x.client.ref = i
  rep : ∀ (m : ℕ) (mt : Mount), mounts[m]? = some mt → mt.point.Rep
  snapshot : ∀ (m : ℕ) (mt : Mount), mounts[m]? = some mt →
    ∀ d ∈ mt.point.snapshot, Registered sessions m d

theorem newClient_eq_some {x : Session} {mp : MountPoint} {c : Client}
    (h : newClient x mp = some c) : c.ref = x.client.ref ∧ c.id = x.client.id := by
  obtain ⟨-, h⟩ := Option.ite_none_right_eq_some.mp h
  exact Option.some.inj h ▸ ⟨rfl, rfl⟩

namespace Known

variable {mounts : List Mount} {sessions : List Session} {i m : ℕ} {x x' : Session} {mt : Mount}

theorem init (h : ∀ mt ∈ mounts, mt.Fresh) : Known mounts [] where
  ref i x hx := by simp at hx
  rep m mt hmt := by
    obtain ⟨_, _, _, _, _, _, rfl⟩ := h mt (List.mem_of_getElem? hmt)
    exact .newMountPoint _ _ _ _ _ _
  snapshot m mt hmt d hd := by
    obtain ⟨_, _, _, _, _, _, rfl⟩ := h mt (List.mem_of_getElem? hmt)
    simp [newMountPoint] at hd

theorem connect (h : Known mounts sessions) (mount : ℕ) (id : Bytes) (userID : ℤ) :
    Known mounts (sessions ++ [newSession sessions.length mount id userID]) where
  ref := by
    intro i x hx
    rcases getElem?_snoc_eq_some hx with hx | ⟨hi, rfl⟩
    · exact h.ref i x hx
    · exact hi.symm
  rep := h.rep
  snapshot := by
    intro m mt hmt d hd
    obtain ⟨x, hx, hrest⟩ := h.snapshot m mt hmt d hd
    refine ⟨x, ?_, hrest⟩
    exact getElem?_append_of_eq_some hx

/-- A session moves and stays registered if it was. -/
theorem setSession (h : Known mounts sessions) (hx : sessions[i]? = some x)
    (hclient : x'.client = x.client) (hmount : x'.mount = x.mount)
    (hreg : x.pc.registered = true → x'.pc.registered = true) :
    Known mounts (sessions.set i x') where
  ref := by
    intro j y hy
    rcases getElem?_set_eq_some hy with ⟨rfl, rfl⟩ | ⟨-, hy⟩
    · rw [hclient]
      exact h.ref j x hx
    · exact h.ref j y hy
  rep := h.rep
  snapshot := by
    intro m mt hmt d hd
    refine exists_getElem?_set hx (h.snapshot m mt hmt d hd) fun _ ⟨hc, hm, hr⟩ => ?_
    exact ⟨hclient.trans hc, hmount.trans hm, hreg hr⟩

/-- A mountpoint changes and its snapshot shows registered sessions. -/
theorem setMount (h : Known mounts sessions) {mt' : Mount} (hrep : mt'.point.Rep)
    (hsnap : ∀ d ∈ mt'.point.snapshot, Registered sessions m d) :
    Known (mounts.set m mt') sessions where
  ref := h.ref
  rep := by
    intro m' y hy
    rcases getElem?_set_eq_some hy with ⟨rfl, rfl⟩ | ⟨-, hy⟩
    · exact hrep
    · exact h.rep m' y hy
  snapshot := by
    intro m' y hy
    rcases getElem?_set_eq_some hy with ⟨rfl, rfl⟩ | ⟨-, hy⟩
    · exact hsnap
    · exact h.snapshot m' y hy

/-- A mountpoint changes and nobody joins its snapshot. -/
theorem shrinkMount (h : Known mounts sessions) (hmt : mounts[m]? = some mt) {mt' : Mount}
    (hrep : mt'.point.Rep) (hsub : ∀ d ∈ mt'.point.snapshot, d ∈ mt.point.snapshot) :
    Known (mounts.set m mt') sessions :=
  h.setMount hrep fun d hd => h.snapshot m mt hmt d (hsub d hd)

/-- A broadcast moves on. -/
theorem samePoint (h : Known mounts sessions) (hmt : mounts[m]? = some mt) {mt' : Mount}
    (hpoint : mt'.point = mt.point) : Known (mounts.set m mt') sessions :=
  h.shrinkMount hmt (hpoint ▸ h.rep m mt hmt) fun _ hd => hpoint ▸ hd

/-- No snapshot shows a session that is not registered. -/
theorem ref_ne (h : Known mounts sessions) (hx : sessions[i]? = some x)
    (hreg : x.pc.registered = false) (hmt : mounts[m]? = some mt) {d : Client}
    (hd : d ∈ mt.point.snapshot) : d.ref ≠ i := by
  intro hi
  obtain ⟨y, hy, -, -, hr⟩ := h.snapshot m mt hmt d hd
  obtain rfl := Option.some.inj ((hi ▸ hy).symm.trans hx)
  rw [hreg] at hr
  cases hr

/-- The handler puts its client into the map, and into the snapshot. -/
theorem addClient (h : Known mounts sessions) (hx : sessions[i]? = some x)
    (hmt : mounts[x.mount]? = some mt) (hpc : x.pc = .addClient) {c : Client} {mp : MountPoint}
    {ord : RangeOrder Client} (hc : newClient x mt.point = some c)
    (hadd : mt.point.addClient ord c = .ok mp) :
    Known (mounts.set x.mount { mt with point := mp })
      (sessions.set i { x with client := c, pc := .add }) := by
  have hrep := h.rep _ _ hmt
  have href : c.ref = i := (newClient_eq_some hc).1.trans (h.ref i x hx)
  have hunreg : x.pc.registered = false := by rw [hpc]; rfl
  -- whoever was in a snapshot is another session, which has not moved
  have hold : ∀ m' mt', mounts[m']? = some mt' → ∀ d ∈ mt'.point.snapshot,
      Registered (sessions.set i { x with client := c, pc := .add }) m' d := by
    intro m' mt' hmt' d hd
    exact exists_getElem?_set hx (h.snapshot m' mt' hmt' d hd) fun hi =>
      absurd hi (h.ref_ne hx hunreg hmt' hd)
  have hknown : Known mounts (sessions.set i { x with client := c, pc := .add }) := by
    refine ⟨fun j y hy => ?_, h.rep, hold⟩
    rcases getElem?_set_eq_some hy with ⟨rfl, rfl⟩ | ⟨-, hy⟩
    · exact href
    · exact h.ref j y hy
  refine hknown.setMount (hrep.addClient hadd) fun d hd => ?_
  rcases hrep.mem_snapshot_addClient hadd hd with rfl | hd
  · refine ⟨{ x with client := d, pc := .add }, ?_, rfl, rfl, rfl⟩
    rw [href]
    exact getElem?_set_of_eq_some hx
  · exact hold _ mt hmt d hd

/-- The deferred `RemoveClient` takes the session's own client out, since IDs differ. -/
theorem removeClient (h : Known mounts sessions) (hx : sessions[i]? = some x)
    (hmt : mounts[x.mount]? = some mt) (ord : RangeOrder Client) :
    Known (mounts.set x.mount { mt with point := mt.point.removeClient ord x.client.id })
      (sessions.set i { x with pc := .release }) := by
  have hrep := (h.rep _ _ hmt).removeClient ord x.client.id
  -- whoever is left in the snapshot was there and has another ID
  have hold : ∀ d, d ∈ (mt.point.removeClient ord x.client.id).snapshot →
      d.id ≠ x.client.id ∧ d ∈ mt.point.snapshot := by
    intro d hd
    obtain ⟨hne, hlook⟩ := MountPoint.lookup_removeClient (hrep.mem_snapshot.mp hd)
    exact ⟨hne, (h.rep _ _ hmt).mem_snapshot.mpr hlook⟩
  refine ⟨fun j y hy => ?_, fun m' y hy => ?_, fun m' y hy d hd => ?_⟩
  · rcases getElem?_set_eq_some hy with ⟨rfl, rfl⟩ | ⟨-, hy⟩
    · exact h.ref j x hx
    · exact h.ref j y hy
  · rcases getElem?_set_eq_some hy with ⟨rfl, rfl⟩ | ⟨-, hy⟩
    · exact hrep
    · exact h.rep m' y hy
  · rcases getElem?_set_eq_some hy with ⟨rfl, rfl⟩ | ⟨hne, hy⟩
    · -- the session's own client is gone from the map, whoever is left is another session
      obtain ⟨hid, hd⟩ := hold d hd
      refine exists_getElem?_set hx (h.snapshot _ mt hmt d hd) fun _ ⟨hc, _⟩ => ?_
      exact absurd (congrArg Client.id hc).symm hid
    · -- on other mountpoints the session is not registered at all
      refine exists_getElem?_set hx (h.snapshot m' y hy d hd) fun _ ⟨_, hm, _⟩ => ?_
      exact absurd hm.symm hne

/-- Every effect keeps the sessions behind the snapshots known. -/
theorem effect {s s' : RoverState} {a : RoverStep} (h : Known s.mounts s.sessions)
    (he : RoverEffect s a s') : Known s'.mounts s'.sessions := by
  cases he with
  | connect mount id userID => exact h.connect mount id userID
  | moves hx hmove =>
    exact h.setSession hx hmove.client hmove.mount fun hr => hmove.registered.trans hr
  | teardowns t => exact h
  | addClient ha hx hmt hpc hc hadd => exact h.addClient hx hmt hpc hc hadd
  | add hx hpc => exact h.setSession hx rfl rfl fun _ => rfl
  | removeClient ord hx hmt hpc => exact h.removeClient hx hmt ord
  | release hx hpc => exact h.setSession hx rfl rfl fun hr => by rw [hpc] at hr; cases hr
  | operate t hmt hop =>
    have hrep := h.rep _ _ hmt
    exact h.shrinkMount hmt (hrep.apply _) fun d hd => hrep.mem_snapshot_apply hop hd
  | broadcast pkt hmt hpc => exact h.samePoint hmt rfl
  | finish hmt hpc => exact h.samePoint hmt rfl
  | enter hmt hpc hx hdone => exact h.samePoint hmt rfl
  | skip hmt hpc hx hdone => exact h.samePoint hmt rfl
  | accept hmt hpc hx hacc =>
    refine setSession (h.samePoint hmt ?_) hx hacc.client hacc.mount fun hr => ?_
    · rfl
    · exact hacc.registered.trans hr
  | refuse hmt hpc => exact h.samePoint hmt rfl
  -- the counters of `Broadcast` are not among the copies
  | slowClients n hmt hpc =>
    have hrep := h.rep _ _ hmt
    exact h.shrinkMount hmt
      ⟨hrep.snapshot_perm, hrep.own_id, hrep.clientCount, hrep.sourceOnline⟩ fun d hd => hd
  | kickCount hmt hpc =>
    have hrep := h.rep _ _ hmt
    exact h.shrinkMount hmt
      ⟨hrep.snapshot_perm, hrep.own_id, hrep.clientCount, hrep.sourceOnline⟩ fun d hd => hd
  | markSlow hmt hpc hx hslow =>
    refine setSession (h.samePoint hmt ?_) hx ?_ ?_ id <;> rfl

end Known

theorem roverSystem_known {maxClients : ℤ} {s : RoverState}
    (h : (roverSystem maxClients).Reachable s) : Known s.mounts s.sessions := by
  refine h.invariant (I := fun s => Known s.mounts s.sessions) ?_ fun s a s' _ hs hstep =>
    hs.effect (step_effect hstep)
  rintro s ⟨mounts, hfresh, rfl⟩
  exact .init hfresh

/-! ## What a step starts -/

namespace RoverState

variable {s s' : RoverState} {a : RoverStep}

/-- No session is started, and no packet is broadcast. -/
structure StartsNothing (s s' : RoverState) : Prop where
  length : s'.sessions.length = s.sessions.length
  log : ∀ m : ℕ, (s'.mounts[m]?).map Mount.log = (s.mounts[m]?).map Mount.log

namespace StartsNothing

theorem trans {s'' : RoverState} (h : StartsNothing s s') (h' : StartsNothing s' s'') :
    StartsNothing s s'' where
  length := h'.length.trans h.length
  log m := (h'.log m).trans (h.log m)

theorem setSession (s : RoverState) (i : ℕ) (x : Session) : StartsNothing s (s.setSession i x) where
  length := List.length_set
  log _ := rfl

theorem map_setSession {i : ℕ} {o : Option Session} (h : o.map (s.setSession i) = some s') :
    StartsNothing s s' := by
  obtain ⟨x, -, rfl⟩ := Option.map_eq_some_iff.mp h
  exact setSession s i x

/-- A mountpoint changes and broadcasts nothing. -/
theorem setMount {k : ℕ} {mt mt' : Mount} (hmt : s.mounts[k]? = some mt)
    (hlog : mt'.log = mt.log) : StartsNothing s (s.setMount k mt') := by
  refine ⟨rfl, fun m => ?_⟩
  by_cases hk : k = m
  · subst hk
    rw [RoverState.setMount, getElem?_set_of_eq_some hmt, hmt, Option.map_some, Option.map_some,
      hlog]
  · rw [RoverState.setMount, List.getElem?_set_ne hk]

/-- A handler registers and responds, and broadcasts nothing. -/
theorem handler {i : ℕ} {ord : RangeOrder Client} {r : WriteResult}
    (h : s.handler i ord r = some s') : StartsNothing s s' := by
  obtain ⟨x, -, h⟩ := Option.bind_eq_some_iff.mp h
  obtain ⟨mt, hmt, h⟩ := Option.bind_eq_some_iff.mp h
  split at h
  · split at h
    · exact Option.some.inj h ▸ setSession s i _
    · exact map_setSession h
  · split at h
    · exact Option.some.inj h ▸ setSession s i _
    · exact map_setSession h
  · split at h
    · exact map_setSession h
    · exact Option.some.inj h ▸ setSession s i _
  · obtain ⟨c, -, h⟩ := Option.bind_eq_some_iff.mp h
    split at h
    · obtain rfl := Option.some.inj h
      refine (setMount hmt ?_).trans (setSession _ i _)
      rfl
    · exact map_setSession h
  · obtain rfl := Option.some.inj h
    exact ⟨List.length_set, fun _ => rfl⟩
  · exact map_setSession h
  · cases h

theorem writeLoop {i : ℕ} {case : LoopCase} {ord : RangeOrder Client} {r : WriteResult}
    (h : s.writeLoop i case ord r = some s') : StartsNothing s s' := by
  obtain ⟨x, -, h⟩ := Option.bind_eq_some_iff.mp h
  split at h
  · obtain ⟨mt, hmt, rfl⟩ := Option.map_eq_some_iff.mp h
    refine (setMount hmt ?_).trans (setSession _ i _)
    rfl
  · obtain rfl := Option.some.inj h
    exact ⟨List.length_set, fun _ => rfl⟩
  · exact map_setSession h

/-- A broadcast that goes on has been logged at its start. -/
theorem deliver {k : ℕ} {case : SendCase} (h : s.deliver k case = some s') :
    StartsNothing s s' := by
  obtain ⟨mt, hmt, h⟩ := Option.bind_eq_some_iff.mp h
  have hmove : ∀ pc, StartsNothing s (s.setBroadcast k mt pc) := fun _ => setMount hmt rfl
  split at h
  · cases h
  · exact Option.some.inj h ▸ hmove _
  · obtain ⟨x, -, rfl⟩ := Option.map_eq_some_iff.mp h
    split <;> exact hmove _
  · obtain ⟨x, -, h⟩ := Option.bind_eq_some_iff.mp h
    split at h
    · obtain ⟨x', -, rfl⟩ := Option.map_eq_some_iff.mp h
      exact (hmove _).trans (setSession _ _ x')
    · exact Option.some.inj (Option.ite_none_right_eq_some.mp h).2 ▸ hmove _
    · exact Option.some.inj (Option.ite_none_right_eq_some.mp h).2 ▸ hmove _
  · exact Option.some.inj h ▸ setMount hmt rfl
  · exact Option.some.inj h ▸ setMount hmt rfl
  · obtain ⟨x, -, rfl⟩ := Option.map_eq_some_iff.mp h
    split
    · exact hmove _
    · exact (hmove _).trans (setSession _ _ _)
  · obtain ⟨x, -, rfl⟩ := Option.map_eq_some_iff.mp h
    split
    · exact hmove _
    · exact setSession s _ _

end StartsNothing

/-- Only `connect` and `Broadcast` start something. -/
theorem startsNothing_step (h : s.step a = some s')
    (hconnect : ∀ mount id userID, a ≠ .connect mount id userID)
    (hbroadcast : ∀ m pkt, a ≠ .broadcast m pkt) : StartsNothing s s' := by
  cases a with
  | connect mount id userID => exact absurd rfl (hconnect mount id userID)
  | handler i ord r => exact .handler h
  | writeLoop i case ord r => exact .writeLoop h
  | watch i =>
    obtain ⟨x, -, h⟩ := Option.bind_eq_some_iff.mp h
    exact .map_setSession h
  | closeConn i =>
    obtain ⟨x, -, h⟩ := Option.bind_eq_some_iff.mp h
    exact .map_setSession h
  | operate m op =>
    simp only [step, operate] at h
    split at h
    · cases h
    · obtain ⟨mt, hmt, rfl⟩ := Option.map_eq_some_iff.mp h
      have hset : StartsNothing s (s.setMount m { mt with point := mt.point.apply op }) :=
        .setMount hmt rfl
      exact ⟨hset.length, hset.log⟩
  | teardown j =>
    simp only [step, teardown] at h
    split at h
    · obtain ⟨x, -, rfl⟩ := Option.map_eq_some_iff.mp h
      split
      · exact ⟨rfl, fun _ => rfl⟩
      · exact .setSession s _ _
    · cases h
  | broadcast m pkt => exact absurd rfl (hbroadcast m pkt)
  | deliver m case => exact .deliver h

/-- Sessions are started by `connect` only. -/
theorem length_sessions_step (h : s.step a = some s')
    (ha : ∀ mount id userID, a ≠ .connect mount id userID) :
    s'.sessions.length = s.sessions.length := by
  by_cases hbroadcast : ∃ m pkt, a = .broadcast m pkt
  · obtain ⟨m, pkt, rfl⟩ := hbroadcast
    obtain ⟨mt, -, h⟩ := Option.bind_eq_some_iff.mp h
    split at h
    · exact Option.some.inj h ▸ rfl
    · cases h
  · exact (startsNothing_step h ha fun m pkt heq => hbroadcast ⟨m, pkt, heq⟩).length

/-- Mountpoint `m` broadcasts in calls of `Broadcast` on it only. -/
theorem log_step {m : ℕ} (h : s.step a = some s') (ha : ∀ pkt, a ≠ .broadcast m pkt) :
    (s'.mounts[m]?).map Mount.log = (s.mounts[m]?).map Mount.log := by
  by_cases hstarts :
      (∃ mount id userID, a = .connect mount id userID) ∨ ∃ k pkt, a = .broadcast k pkt
  · rcases hstarts with ⟨mount, id, userID, rfl⟩ | ⟨k, pkt, rfl⟩
    · exact Option.some.inj h ▸ rfl
    · obtain ⟨mt, -, h⟩ := Option.bind_eq_some_iff.mp h
      split at h
      · obtain rfl := Option.some.inj h
        have hk : k ≠ m := fun hk => ha pkt (hk ▸ rfl)
        rw [setMount, List.getElem?_set_ne hk]
      · cases h
  · refine (startsNothing_step h (fun mount id userID heq => hstarts ?_) fun k pkt heq =>
      hstarts ?_).log m
    · exact .inl ⟨mount, id, userID, heq⟩
    · exact .inr ⟨k, pkt, heq⟩

/-- A session carries the object and the user it was started with. -/
theorem client_of_step (h : s.step a = some s')
    (ha : ∀ mount id userID, a ≠ .connect mount id userID) {x' : Session}
    (hx' : x' ∈ s'.sessions) :
    ∃ x ∈ s.sessions, x'.client.ref = x.client.ref ∧ x'.client.userID = x.client.userID := by
  have hlen := length_sessions_step h ha
  have hset : ∀ {i : ℕ} {x y : Session}, s.sessions[i]? = some x → x' ∈ s.sessions.set i y →
      y.client.ref = x.client.ref ∧ y.client.userID = x.client.userID →
      ∃ x ∈ s.sessions, x'.client.ref = x.client.ref ∧ x'.client.userID = x.client.userID := by
    intro i x y hx hmem hy
    rcases List.mem_or_eq_of_mem_set hmem with hmem | rfl
    · exact ⟨x', hmem, rfl, rfl⟩
    · exact ⟨x, List.mem_of_getElem? hx, hy⟩
  have hsame : ∀ {i : ℕ} {x y : Session}, s.sessions[i]? = some x → x' ∈ s.sessions.set i y →
      y.client = x.client →
      ∃ x ∈ s.sessions, x'.client.ref = x.client.ref ∧ x'.client.userID = x.client.userID :=
    fun hx hmem hy => hset hx hmem ⟨congrArg Client.ref hy, congrArg Client.userID hy⟩
  cases step_effect h with
  | connect mount id userID => simp at hlen
  | moves hx hmove => exact hsame hx hx' hmove.client
  | teardowns t => exact ⟨x', hx', rfl, rfl⟩
  | addClient _ hx hmt hpc hc hadd =>
    obtain ⟨-, hc⟩ := Option.ite_none_right_eq_some.mp hc
    obtain rfl := Option.some.inj hc
    exact hset hx hx' ⟨rfl, rfl⟩
  | add hx hpc => exact hsame hx hx' rfl
  | removeClient ord hx hmt hpc => exact hsame hx hx' rfl
  | release hx hpc => exact hsame hx hx' rfl
  | operate t hmt hop => exact ⟨x', hx', rfl, rfl⟩
  | broadcast pkt hmt hpc => exact ⟨x', hx', rfl, rfl⟩
  | finish hmt hpc => exact ⟨x', hx', rfl, rfl⟩
  | enter hmt hpc hx hdone => exact ⟨x', hx', rfl, rfl⟩
  | skip hmt hpc hx hdone => exact ⟨x', hx', rfl, rfl⟩
  | accept hmt hpc hx hacc => exact hsame hx hx' hacc.client
  | refuse hmt hpc => exact ⟨x', hx', rfl, rfl⟩
  | slowClients n hmt hpc => exact ⟨x', hx', rfl, rfl⟩
  | kickCount hmt hpc => exact ⟨x', hx', rfl, rfl⟩
  | markSlow hmt hpc hx hslow => exact hsame hx hx' rfl

end RoverState

end NtripCaster
