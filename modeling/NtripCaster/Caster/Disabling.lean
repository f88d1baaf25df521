import NtripCaster.Rover.Teardown

/-!
# Disabling and deleting mountpoints

The calls of `internal/mountpoint/manager.go` that take a mountpoint out of service, interleaved
with the handshakes of rovers and sources. Both sides work in several steps: a handshake looks the
mountpoint up, checks that it is enabled, and registers; `UpdateMountPoint` looks it up, reads
whether it was enabled, stores the new metadata, and then disconnects everybody, if it was
enabled. What registers behind the back of the call stays.

## Main definitions

* `SourceHandshake`, `AdminCall`: the handshakes of sources and the calls in progress
* `AdminCall.release`: a call is in force until the mountpoint is enabled again, a `Delete` at
  least until it has returned
* `RegistryState`, `RegistryStep`, `registrySystem`
* `KeepsOut`: the condition on a step

## Main results

* `delete_inForce`: no store takes a `Delete` out of force before it has returned
* `disabled_carries_nothing`: after the call, nothing is connected, under the condition
* `disabled_not_carries_nothing`: a source that registers too late
-/

namespace NtripCaster

open Transition RoverState

/-- The arguments of `UpdateMountPoint` after the name. -/
structure Metadata where
  description : Bytes
  format : Bytes
  enabled : Bool
  writeQueue : ℤ
  writeTimeout : ℤ
  maxClients : ℤ
  deriving DecidableEq, Repr

/-- The critical section of `UpdateMountPoint`. -/
def Metadata.store (args : Metadata) : CriticalSection :=
  .update args.description args.format args.enabled args.writeQueue args.writeTimeout
    args.maxClients

/-- Where the handshake of a source stands after `Get`. -/
inductive SourcePC
  | isEnabled
  | setSource
  | registered
  | rejected
  deriving DecidableEq, Repr

/-- A base station that has passed authentication, on the object that `Get` gave it. -/
structure SourceHandshake where
  mount : ℕ
  info : SourceInfo
  pc : SourcePC
  deriving DecidableEq, Repr

/-- Where a call of `UpdateMountPoint` or `Delete` stands after it has the mountpoint: at the
read of `wasEnabled`, at the critical section, at the one of `DisconnectAll`, at the kicks that
follow it (which teardown), or returned. -/
inductive AdminPC
  | isEnabled (args : Metadata)
  | store (args : Metadata) (wasEnabled : Bool)
  | disconnectAll
  | kick (teardown : ℕ)
  | returned
  deriving DecidableEq, Repr

/-- A call that works on a mountpoint: of `Delete`, or of `UpdateMountPoint`. It is in force from
the time it takes the mountpoint off the registry or stores it disabled (see `release`). -/
structure AdminCall where
  mount : ℕ
  deletes : Bool
  pc : AdminPC
  inForce : Bool
  deriving DecidableEq, Repr

/-- The registry, the mountpoints it leads to (and those it no longer leads to), and what is in
progress. -/
structure RegistryState where
  mounts : GoMap Bytes ℕ
  rovers : RoverState
  handshakes : List SourceHandshake
  calls : List AdminCall

/-- A step, with its choices. -/
inductive RegistryStep
  | create (name description format : Bytes) (writeQueue writeTimeout maxClients : ℤ)
  | getRover (name id : Bytes) (userID : ℤ)
  | getSource (name : Bytes) (info : SourceInfo)
  | source (k : ℕ)
  | rover (a : RoverStep)
  | update (name : Bytes) (args : Metadata)
  | delete (name : Bytes)
  | call (k : ℕ) (ord : RangeOrder Client)

/-- The steps of rovers and mountpoints that are not part of a handshake with `Get`, of the
handshake of a source or of `UpdateMountPoint`. -/
def RoverStep.isOwn : RoverStep → Bool
  | .connect .. | .operate _ (.setSource _) | .operate _ (.update ..) => false
  | _ => true

/-- Somebody stores mountpoint `m` enabled. A call about `m` is in force no more: an
`UpdateMountPoint` has not left it disabled, or it is enabled again. A `Delete` has not disabled
the mountpoint, which may have been enabled all along: a store before it returns means nothing. -/
def AdminCall.release (m : ℕ) (c : AdminCall) : AdminCall :=
  if c.mount = m ∧ (c.deletes = true → c.pc = .returned) then { c with inForce := false } else c

namespace RegistryState

variable (s : RegistryState)

/-- `Create`; the new mountpoint is the next one. -/
def create (name description format : Bytes) (writeQueue writeTimeout maxClients : ℤ) :
    Option RegistryState :=
  if (s.mounts.lookup name).isSome then none
  else
    some { s with
      mounts := s.mounts.insert name s.rovers.mounts.length
      rovers := { s.rovers with
        mounts := s.rovers.mounts ++ [⟨newMountPoint name description format writeQueue
          writeTimeout maxClients, .idle, []⟩] } }

/-- The next step of the handshake of a source. -/
def source (k : ℕ) : Option RegistryState :=
  (s.handshakes[k]?).bind fun x =>
    (s.rovers.mounts[x.mount]?).bind fun mt =>
      match x.pc with
      | .isEnabled =>
        let pc := if mt.point.enabled then .setSource else .rejected
        some { s with handshakes := s.handshakes.set k { x with pc := pc } }
      | .setSource =>
        let pc := if (mt.point.setSource x.info).2 then .registered else .rejected
        (s.rovers.step (.operate x.mount (.setSource x.info))).map fun rovers =>
          { s with rovers := rovers, handshakes := s.handshakes.set k { x with pc := pc } }
      | _ => none

/-- The next step of a call, with the order of the loop in `DisconnectAll`. -/
def call (k : ℕ) (ord : RangeOrder Client) : Option RegistryState :=
  (s.calls[k]?).bind fun c =>
    match c.pc with
    | .isEnabled args =>
      -- `IsEnabled`, outside the critical section
      (s.rovers.mounts[c.mount]?).map fun mt =>
        { s with calls := s.calls.set k { c with pc := .store args mt.point.enabled } }
    | .store args wasEnabled =>
      (s.rovers.step (.operate c.mount args.store)).map fun rovers =>
        if args.enabled then
          { s with
            rovers := rovers
            calls := (s.calls.set k { c with pc := .returned }).map (.release c.mount) }
        else
          let pc := if wasEnabled then .disconnectAll else .returned
          { s with rovers := rovers, calls := s.calls.set k { c with pc := pc, inForce := true } }
    | .disconnectAll =>
      (s.rovers.step (.operate c.mount (.disconnectAll ord))).map fun rovers =>
        { s with
          rovers := rovers
          calls := s.calls.set k { c with pc := .kick s.rovers.teardowns.length } }
    | .kick j =>
      -- the loop of kicks is a teardown of its own
      if s.rovers.teardowns[j]? = some [] then
        some { s with calls := s.calls.set k { c with pc := .returned } }
      else none
    | .returned => none

/-- The API creates, updates or deletes a mountpoint, a connection looks one up, and what has been
started makes its next step. -/
def step : RegistryStep → Option RegistryState
  | .create name description format writeQueue writeTimeout maxClients =>
    s.create name description format writeQueue writeTimeout maxClients
  | .getRover name id userID =>
    (s.mounts.lookup name).bind fun m =>
      (s.rovers.step (.connect m id userID)).map fun rovers => { s with rovers := rovers }
  | .getSource name info =>
    (s.mounts.lookup name).map fun m =>
      { s with handshakes := s.handshakes ++ [⟨m, info, .isEnabled⟩] }
  | .source k => s.source k
  | .rover a =>
    if a.isOwn then (s.rovers.step a).map fun rovers => { s with rovers := rovers } else none
  | .update name args =>
    (s.mounts.lookup name).map fun m =>
      { s with calls := s.calls ++ [⟨m, false, .isEnabled args, false⟩] }
  | .delete name =>
    (s.mounts.lookup name).map fun m =>
      { s with
        mounts := s.mounts.erase name
        calls := s.calls ++ [⟨m, true, .disconnectAll, true⟩] }
  | .call k ord => s.call k ord

end RegistryState

/-- The registry of a server from `NewManager` on. -/
def registrySystem (maxClients : ℤ) : System RegistryState RegistryStep where
  init s := s = ⟨∅, ⟨newGlobalLimiter maxClients, [], [], []⟩, [], []⟩
  step := RegistryState.step

/-! ## The condition -/

/-- The call has disconnected everybody, or has left it at that, and is in force. -/
def AdminCall.swept (c : AdminCall) : Bool :=
  c.inForce &&
    match c.pc with
    | .kick _ | .returned => true
    | _ => false

namespace RegistryState

/-- A call in force has swept the mountpoint. -/
def OutOfService (s : RegistryState) (m : ℕ) : Prop :=
  ∃ c ∈ s.calls, c.mount = m ∧ c.swept = true

instance (s : RegistryState) (m : ℕ) : Decidable (s.OutOfService m) :=
  inferInstanceAs (Decidable (∃ c ∈ s.calls, c.mount = m ∧ c.swept = true))

/-- Nothing is connected to the mountpoint. -/
def Deserted (r : RoverState) (m : ℕ) : Prop :=
  ∀ mt ∈ r.mounts[m]?, mt.point.source = none ∧ ∀ d ∈ mt.point.clientsByID.values, r.Closed d

instance (r : RoverState) (m : ℕ) : Decidable (Deserted r m) :=
  inferInstanceAs (Decidable (∀ mt ∈ r.mounts[m]?, mt.point.source = none ∧
    ∀ d ∈ mt.point.clientsByID.values, r.Closed d))

end RegistryState

open RegistryState

/-- The next step of a call stores that the mountpoint is disabled, and is the last. -/
def AdminPC.skipsDisconnect : AdminPC → Bool
  | store args wasEnabled => !args.enabled && !wasEnabled
  | _ => false

/-- The condition on a step: nobody registers on a mountpoint that is out of service, and a call
skips `DisconnectAll` only where nothing is connected. -/
def KeepsOut (s : RegistryState) : RegistryStep → Prop
  | .rover a => ∀ x ∈ s.rovers.joining a, ¬ s.OutOfService x.mount
  | .source k => ∀ x ∈ s.handshakes[k]?, x.pc = .setSource → ¬ s.OutOfService x.mount
  | .call k _ => ∀ c ∈ s.calls[k]?, c.pc.skipsDisconnect = true → Deserted s.rovers c.mount
  | _ => True

instance (s : RegistryState) (a : RegistryStep) : Decidable (KeepsOut s a) :=
  match a with
  | .rover a => inferInstanceAs (Decidable (∀ x ∈ s.rovers.joining a, ¬ s.OutOfService x.mount))
  | .source k => inferInstanceAs (Decidable (∀ x ∈ s.handshakes[k]?, x.pc = .setSource →
      ¬ s.OutOfService x.mount))
  | .call k _ => inferInstanceAs (Decidable (∀ c ∈ s.calls[k]?, c.pc.skipsDisconnect = true →
      Deserted s.rovers c.mount))
  | .create .. | .getRover .. | .getSource .. | .update .. | .delete .. => .isTrue trivial

/-! ## Calls in force -/

/-- The call is in force if it is a `Delete` that has not returned. -/
def AdminCall.InForceToReturn (c : AdminCall) : Prop :=
  c.deletes = true → c.pc ≠ .returned → c.inForce = true

theorem AdminCall.InForceToReturn.release {c : AdminCall} (h : c.InForceToReturn) (m : ℕ) :
    (c.release m).InForceToReturn := by
  unfold AdminCall.release
  split
  next hm => exact fun hdel hpc => absurd (hm.2 hdel) hpc
  next => exact h

theorem RegistryState.call_inForceToReturn {s s' : RegistryState} {k : ℕ} {ord : RangeOrder Client}
    (h : ∀ c ∈ s.calls, c.InForceToReturn) (hstep : s.call k ord = some s') :
    ∀ c ∈ s'.calls, c.InForceToReturn := by
  obtain ⟨c, hc, hstep⟩ := Option.bind_eq_some_iff.mp hstep
  have hmem := h c (List.mem_of_getElem? hc)
  split at hstep
  next args hpc =>
    obtain ⟨mt, -, rfl⟩ := Option.map_eq_some_iff.mp hstep
    exact forall_mem_set h fun hdel _ => hmem hdel (by simp [hpc])
  next args wasEnabled hpc =>
    obtain ⟨r', -, hstep⟩ := Option.map_eq_some_iff.mp hstep
    split at hstep
    · subst hstep
      intro c' hc'
      obtain ⟨c₀, hc₀, rfl⟩ := List.mem_map.mp hc'
      exact (forall_mem_set h (fun _ hret => absurd rfl hret) c₀ hc₀).release c.mount
    · exact hstep ▸ forall_mem_set h fun _ _ => rfl
  next hpc =>
    obtain ⟨r', -, rfl⟩ := Option.map_eq_some_iff.mp hstep
    exact forall_mem_set h fun hdel _ => hmem hdel (by simp [hpc])
  next j hpc =>
    obtain ⟨-, hstep⟩ := Option.ite_none_right_eq_some.mp hstep
    exact Option.some.inj hstep ▸ forall_mem_set h fun _ hret => absurd rfl hret
  next => cases hstep

/-- **A `Delete` is in force until it has returned**, whatever is stored meanwhile. -/
theorem delete_inForce {maxClients : ℤ} {s : RegistryState}
    (h : (registrySystem maxClients).Reachable s) : ∀ c ∈ s.calls, c.InForceToReturn := by
  refine System.Reachable.invariant (I := fun s => ∀ c ∈ s.calls, c.InForceToReturn)
    ?_ (fun s a s' _ hs hstep => ?_) h
  · rintro s rfl c hc
    cases hc
  cases a with
  | create name description format writeQueue writeTimeout maxClients =>
    have hstep : s.create name description format writeQueue writeTimeout maxClients = some s' :=
      hstep
    unfold RegistryState.create at hstep
    split at hstep
    · cases hstep
    · exact Option.some.inj hstep ▸ hs
  | getRover name id userID =>
    obtain ⟨m, -, hstep⟩ := Option.bind_eq_some_iff.mp hstep
    obtain ⟨r', -, rfl⟩ := Option.map_eq_some_iff.mp hstep
    exact hs
  | getSource name info =>
    obtain ⟨m, -, rfl⟩ := Option.map_eq_some_iff.mp hstep
    exact hs
  | source k =>
    obtain ⟨x, -, hstep⟩ := Option.bind_eq_some_iff.mp hstep
    obtain ⟨mt, -, hstep⟩ := Option.bind_eq_some_iff.mp hstep
    split at hstep
    next => exact Option.some.inj hstep ▸ hs
    next =>
      obtain ⟨r', -, rfl⟩ := Option.map_eq_some_iff.mp hstep
      exact hs
    next => cases hstep
  | rover a =>
    obtain ⟨-, hstep⟩ := Option.ite_none_right_eq_some.mp hstep
    obtain ⟨r', -, rfl⟩ := Option.map_eq_some_iff.mp hstep
    exact hs
  | update name args =>
    obtain ⟨m, -, rfl⟩ := Option.map_eq_some_iff.mp hstep
    exact forall_mem_snoc hs nofun
  | delete name =>
    obtain ⟨m, -, rfl⟩ := Option.map_eq_some_iff.mp hstep
    exact forall_mem_snoc hs fun _ _ => rfl
  | call k ord => exact RegistryState.call_inForceToReturn hs hstep

/-- What holds of a mountpoint while a call on it is in force: once the call has swept it, nothing
but clients that it has still to kick; once it has returned, nothing. -/
def AdminCall.Holds (r : RoverState) (c : AdminCall) : Prop :=
  c.inForce = true →
    match c.pc with
    | .kick j => r.OnMount c.mount (fun _ => False) fun d => r.Closed d ∨ r.Kicking j d
    | .returned => r.OnMount c.mount (fun _ => False) r.Closed
    | _ => True

theorem AdminCall.Holds.step {r r' : RoverState} {c : AdminCall} {a : RoverStep}
    (h : c.Holds r) (hstep : r.step a = some r')
    (hjoin : c.swept = true → ∀ d, ¬ r.Joins a c.mount d)
    (hset : c.swept = true → ∀ src, a ≠ .operate c.mount (.setSource src)) : c.Holds r' := by
  intro hforce
  have hc := h hforce
  split at hc
  next j hpc =>
    have hswept : c.swept = true := by simp [swept, hforce, hpc]
    exact hc.step hstep (fun d hd => settled_step hd hstep)
      (fun d hd => absurd hd (hjoin hswept d)) fun src ha => hset hswept src ha
  next hpc =>
    have hswept : c.swept = true := by simp [swept, hforce, hpc]
    exact hc.step hstep (fun d hd => hd.step hstep)
      (fun d hd => absurd hd (hjoin hswept d)) fun src ha => hset hswept src ha
  next => trivial

/-- A step that registers nobody. -/
theorem AdminCall.Holds.step_operate {r r' : RoverState} {c : AdminCall} {m : ℕ}
    {op : CriticalSection} (h : c.Holds r) (hstep : r.step (.operate m op) = some r')
    (hop : ∀ src, op ≠ .setSource src) : c.Holds r' := by
  refine h.step hstep (fun _ d => RoverState.not_joins_operate) fun _ src ha => ?_
  cases ha
  exact hop src rfl

/-- `DisconnectAll` leaves nothing but clients that it has still to kick. -/
theorem onMount_disconnectAll {r r' : RoverState} {m : ℕ} {ord : RangeOrder Client}
    (h : r.step (.operate m (.disconnectAll ord)) = some r') :
    r'.OnMount m (fun _ => False) fun d => r'.Closed d ∨ r'.Kicking r.teardowns.length d := by
  obtain ⟨mt, hmt, rfl⟩ := Option.map_eq_some_iff.mp h
  intro mt' hmt'
  rcases getElem?_set_eq_some hmt' with ⟨-, rfl⟩ | ⟨hne, -⟩
  · refine ⟨nofun, fun id d hd => .inr ⟨_, List.getElem?_concat_length, ?_⟩⟩
    exact ord.mem_visit.mpr (GoMap.mem_values.mpr ⟨id, hd⟩)
  · exact absurd rfl hne

/-- A new mountpoint has no sessions. -/
theorem onMount_create {r : RoverState} {m : ℕ} {S : SourceInfo → Prop} {C : Client → Prop}
    (h : r.OnMount m S C) {mt : Mount} (hfresh : mt.Fresh) :
    RoverState.OnMount { r with mounts := r.mounts ++ [mt] } m S C := by
  intro mt' hmt'
  rcases getElem?_snoc_eq_some hmt' with hmt' | ⟨-, rfl⟩
  · exact h mt' hmt'
  · obtain ⟨name, description, format, writeQueue, writeTimeout, maxClients, rfl⟩ := hfresh
    exact ⟨nofun, fun id d hd => by simp [newMountPoint] at hd⟩

theorem AdminCall.Holds.create {r : RoverState} {c : AdminCall} (h : c.Holds r) {mt : Mount}
    (hfresh : mt.Fresh) : c.Holds { r with mounts := r.mounts ++ [mt] } := by
  intro hforce
  have hc := h hforce
  split at hc
  next => exact onMount_create hc hfresh
  next => exact onMount_create hc hfresh
  next => trivial

/-- Once the kicks are over, everybody is closed. -/
theorem AdminCall.Holds.returned {r : RoverState} {c : AdminCall} {j : ℕ} (h : c.Holds r)
    (hpc : c.pc = .kick j) (hj : r.teardowns[j]? = some []) :
    AdminCall.Holds r { c with pc := .returned } := by
  intro hforce
  have hc := h hforce
  rw [hpc] at hc
  refine fun mt hmt => ⟨(hc mt hmt).1, fun id d hd => ?_⟩
  exact ((hc mt hmt).2 id d hd).resolve_right (not_kicking_nil hj d)

namespace RegistryState

variable {s s' : RegistryState}

/-- A swept mountpoint is out of service. -/
theorem outOfService {c : AdminCall} (hc : c ∈ s.calls) (h : c.swept = true) :
    s.OutOfService c.mount :=
  ⟨c, hc, rfl, h⟩

theorem source_holds {k : ℕ} (h : ∀ c ∈ s.calls, c.Holds s.rovers)
    (hguard : KeepsOut s (.source k)) (hstep : s.source k = some s') :
    ∀ c ∈ s'.calls, c.Holds s'.rovers := by
  obtain ⟨x, hx, hstep⟩ := Option.bind_eq_some_iff.mp hstep
  obtain ⟨mt, hmt, hstep⟩ := Option.bind_eq_some_iff.mp hstep
  split at hstep
  next => exact Option.some.inj hstep ▸ h
  next hpc =>
    obtain ⟨r', hr', rfl⟩ := Option.map_eq_some_iff.mp hstep
    intro c hc
    refine (h c hc).step hr' (fun _ d => RoverState.not_joins_operate) fun hswept src ha => ?_
    have hmount : x.mount = c.mount := (RoverStep.operate.inj ha).1
    exact hguard x hx hpc (hmount ▸ outOfService hc hswept)
  next => cases hstep

/-- A call sweeps its mountpoint, or goes on past clients that it has closed; what another one
stores only puts calls out of force. -/
theorem call_holds {k : ℕ} {ord : RangeOrder Client} (h : ∀ c ∈ s.calls, c.Holds s.rovers)
    (hguard : KeepsOut s (.call k ord)) (hstep : s.call k ord = some s') :
    ∀ c ∈ s'.calls, c.Holds s'.rovers := by
  obtain ⟨c, hc, hstep⟩ := Option.bind_eq_some_iff.mp hstep
  have hmem : c ∈ s.calls := List.mem_of_getElem? hc
  split at hstep
  next args hpc =>
    obtain ⟨mt, -, rfl⟩ := Option.map_eq_some_iff.mp hstep
    exact forall_mem_set h fun _ => trivial
  next args wasEnabled hpc =>
    obtain ⟨r', hr', hstep⟩ := Option.map_eq_some_iff.mp hstep
    have hold : ∀ c ∈ s.calls, c.Holds r' := fun c hc => (h c hc).step_operate hr' nofun
    split at hstep
    · subst hstep
      intro c' hc'
      obtain ⟨c₀, hc₀, rfl⟩ := List.mem_map.mp hc'
      unfold AdminCall.release
      split
      next => exact nofun
      next hstays =>
        -- a call about another mountpoint, or a `Delete` that has not returned
        rcases List.mem_or_eq_of_mem_set hc₀ with hc₀ | rfl
        · exact hold c₀ hc₀
        · exact absurd ⟨rfl, fun _ => rfl⟩ hstays
    next hdisabled =>
      subst hstep
      refine forall_mem_set hold ?_
      cases wasEnabled with
      | true => exact fun _ => trivial
      | false =>
        -- nobody is disconnected: the condition says that nothing was connected
        have hdeserted : Deserted s.rovers c.mount :=
          hguard c hc (by rw [hpc]; simp [AdminPC.skipsDisconnect, hdisabled])
        have hon : s.rovers.OnMount c.mount (fun _ => False) s.rovers.Closed := by
          intro mt hmt
          obtain ⟨hsrc, hclients⟩ := hdeserted mt hmt
          refine ⟨fun src hs => ?_, fun id d hd => hclients d (GoMap.mem_values.mpr ⟨id, hd⟩)⟩
          rw [hsrc] at hs
          cases hs
        exact fun _ => hon.step hr' (fun d hd => hd.step hr')
          (fun d hd => absurd hd RoverState.not_joins_operate) nofun
  next hpc =>
    obtain ⟨r', hr', rfl⟩ := Option.map_eq_some_iff.mp hstep
    exact forall_mem_set (fun c hc => (h c hc).step_operate hr' nofun) fun _ =>
      onMount_disconnectAll hr'
  next j hpc =>
    obtain ⟨hj, hstep⟩ := Option.ite_none_right_eq_some.mp hstep
    exact Option.some.inj hstep ▸ forall_mem_set h ((h c hmem).returned hpc hj)
  next => cases hstep

/-- Every step that meets the condition keeps what holds while calls are in force. -/
theorem step_holds {a : RegistryStep} (h : ∀ c ∈ s.calls, c.Holds s.rovers)
    (hguard : KeepsOut s a) (hstep : s.step a = some s') : ∀ c ∈ s'.calls, c.Holds s'.rovers := by
  cases a with
  | create name description format writeQueue writeTimeout maxClients =>
    simp only [step, RegistryState.create] at hstep
    split at hstep
    · cases hstep
    · exact Option.some.inj hstep ▸ fun c hc => (h c hc).create ⟨_, _, _, _, _, _, rfl⟩
  | getRover name id userID =>
    obtain ⟨m, -, hstep⟩ := Option.bind_eq_some_iff.mp hstep
    obtain ⟨r', hr', rfl⟩ := Option.map_eq_some_iff.mp hstep
    exact fun c hc => (h c hc).step hr' (fun _ d => RoverState.not_joins_connect) nofun
  | getSource name info =>
    obtain ⟨m, -, rfl⟩ := Option.map_eq_some_iff.mp hstep
    exact h
  | source k => exact source_holds h hguard hstep
  | rover a =>
    obtain ⟨hown, hstep⟩ := Option.ite_none_right_eq_some.mp hstep
    obtain ⟨r', hr', rfl⟩ := Option.map_eq_some_iff.mp hstep
    intro c hc
    refine (h c hc).step hr' (fun hswept d hd => ?_) fun _ src ha => ?_
    · obtain ⟨x, hx, hmount, -⟩ := hd.joining
      exact hguard x hx (hmount ▸ outOfService hc hswept)
    · rw [ha] at hown
      cases hown
  | update name args =>
    obtain ⟨m, -, rfl⟩ := Option.map_eq_some_iff.mp hstep
    exact forall_mem_snoc h nofun
  | delete name =>
    obtain ⟨m, -, rfl⟩ := Option.map_eq_some_iff.mp hstep
    exact forall_mem_snoc h fun _ => trivial
  | call k ord => exact call_holds h hguard hstep

end RegistryState

/-- Once an `UpdateMountPoint` that leaves a mountpoint disabled or a `Delete` has returned, and
until the mountpoint is enabled again, no source is registered on it and every client registered
on it has been closed. -/
def CarriesNothing (s : RegistryState) : Prop :=
  ∀ c ∈ s.calls, c.pc = .returned → c.inForce = true → ∀ mt ∈ s.rovers.mounts[c.mount]?,
    mt.point.source = none ∧
      ∀ id d, mt.point.clientsByID.lookup id = some d → s.rovers.Closed d

/-- **A disabled or deleted mountpoint carries nothing** in a run in which nobody registers on a
mountpoint that a call in force has swept, and a call that stores it disabled without
disconnecting anybody finds nothing connected. -/
theorem disabled_carries_nothing {maxClients : ℤ} {s : RegistryState}
    (h : ((registrySystem maxClients).restrict KeepsOut).Reachable s) : CarriesNothing s := by
  have hholds : ∀ c ∈ s.calls, c.Holds s.rovers := by
    refine System.Reachable.restrict_invariant (I := fun s => ∀ c ∈ s.calls, c.Holds s.rovers)
      ?_ (fun t a t' _ ht hguard hstep => step_holds ht hguard hstep) h
    rintro t rfl
    simp
  intro c hc hpc hforce mt hmt
  have hon := hholds c hc hforce
  rw [hpc] at hon
  obtain ⟨hsrc, hclients⟩ := hon mt hmt
  exact ⟨Option.eq_none_iff_forall_not_mem.mpr hsrc, hclients⟩

/-- A mountpoint `M` is created and a base station has passed the check of its handshake. -/
def checkedSource : List RegistryStep :=
  [.create (ascii "M") [] (ascii "RTCM3") 64 3000000000 0,
    .getSource (ascii "M") ⟨0, ascii "s", 0⟩, .source 0]

/-- `M` is disabled, step by step. -/
def disableM : List RegistryStep :=
  .update (ascii "M") ⟨[], ascii "RTCM3", false, 64, 3000000000, 0⟩ ::
    List.replicate 4 (.call 0 .stored)

/-- `M` is disabled after the base station has registered. -/
theorem disabled_carries_nothing_inTime :
    ∃ s, ((registrySystem 1).restrict KeepsOut).run
        ⟨∅, ⟨newGlobalLimiter 1, [], [], []⟩, [], []⟩
        (checkedSource ++ [.source 0] ++ disableM) = some s ∧
      (∃ c ∈ s.calls, c.pc = .returned ∧ c.inForce = true) ∧ CarriesNothing s := by
  obtain ⟨s, hs, hc⟩ : ∃ s, ((registrySystem 1).restrict KeepsOut).run
        ⟨∅, ⟨newGlobalLimiter 1, [], [], []⟩, [], []⟩
        (checkedSource ++ [.source 0] ++ disableM) = some s ∧
      ∃ c ∈ s.calls, c.pc = .returned ∧ c.inForce = true := ⟨_, rfl, _, .head _, rfl, rfl⟩
  exact ⟨s, hs, hc, disabled_carries_nothing (.of_run _ rfl hs)⟩

/-- `M` is disabled between the check of the base station and its `SetSource`. -/
theorem disabled_not_carries_nothing :
    ¬ ∀ (maxClients : ℤ) (s : RegistryState), (registrySystem maxClients).Reachable s →
      CarriesNothing s := by
  intro hall
  obtain ⟨s, hs, c, hc, hpc, hforce, mt, hmt, hsrc⟩ : ∃ s, (registrySystem 1).run
        ⟨∅, ⟨newGlobalLimiter 1, [], [], []⟩, [], []⟩
        (checkedSource ++ disableM ++ [.source 0]) = some s ∧
      ∃ c ∈ s.calls, c.pc = .returned ∧ c.inForce = true ∧ ∃ mt,
        s.rovers.mounts[c.mount]? = some mt ∧ mt.point.source = some ⟨0, ascii "s", 0⟩ :=
    ⟨_, rfl, _, .head _, rfl, rfl, _, rfl, rfl⟩
  have hnone := (hall 1 s (.of_run _ rfl hs) c hc hpc hforce mt hmt).1
  rw [hsrc] at hnone
  cases hnone

/-- `M` is enabled in the course of its deletion, behind `DisconnectAll`. -/
def deleteEnabledM : List RegistryStep :=
  [.update (ascii "M") ⟨[], ascii "RTCM3", true, 64, 3000000000, 0⟩, .call 0 .stored,
    .delete (ascii "M"), .call 1 .stored, .call 0 .stored, .call 1 .stored]

-- the deletion stays in force: the base station that registers then breaks the condition
example : ((registrySystem 1).restrict KeepsOut).run
      ⟨∅, ⟨newGlobalLimiter 1, [], [], []⟩, [], []⟩ (checkedSource ++ deleteEnabledM) ≠ none ∧
    ((registrySystem 1).restrict KeepsOut).run
      ⟨∅, ⟨newGlobalLimiter 1, [], [], []⟩, [], []⟩
      (checkedSource ++ deleteEnabledM ++ [.source 0]) = none :=
  ⟨nofun, rfl⟩

end NtripCaster
