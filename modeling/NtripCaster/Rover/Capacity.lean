import NtripCaster.Rover.Teardown

/-!
# The global rover limit

`handleRover` checks `AtCapacity`, registers the client and only then counts it. The registered
rovers are the counted ones and those whose handler stands between `AddClient` and `Add`. The
limit holds as long as no handler registers a client when these two already make up
`max_clients`; the check alone does not see the second kind.

## Main definitions

* `RoverState.awaiting`: the handlers between `AddClient` and `Add`
* `RegistersBelow`: the condition on a step

## Main results

* `registered_le`: registered rovers are registered sessions
* `registered_le_maxClients`: the limit, under the condition
* `registered_not_le_maxClients`: two handlers pass the check
-/

namespace NtripCaster

open Transition RoverState

namespace RoverPC

/-- Registered and not counted yet: between `AddClient` and `Add`. -/
def awaitsAdd (pc : RoverPC) : Bool := pc.registered && !pc.counted

theorem awaitsAdd_or_counted {pc : RoverPC} (h : pc.registered = true) :
    pc.awaitsAdd.toNat + pc.counted.toNat = 1 := by
  unfold awaitsAdd
  rw [h]
  cases pc.counted <;> rfl

theorem awaitsAdd_congr {pc pc' : RoverPC} (hreg : pc'.registered = pc.registered)
    (hcounted : pc'.counted = pc.counted) : pc'.awaitsAdd = pc.awaitsAdd := by
  rw [awaitsAdd, awaitsAdd, hreg, hcounted]

end RoverPC

namespace RoverState

/-- The handlers between `AddClient` and `Add`. -/
def awaiting (s : RoverState) : ℕ := s.sessions.countP (·.pc.awaitsAdd)

/-- The sessions between `Add` and `Release`. -/
def counted (s : RoverState) : ℕ := s.sessions.countP (·.pc.counted)

end RoverState

/-- The condition on a step: when a handler registers its client, the counted rovers and the
handlers between `AddClient` and `Add` are fewer than `max_clients`. -/
def RegistersBelow (s : RoverState) (a : RoverStep) : Prop :=
  (s.joining a).isSome = true → s.limiter.count + s.awaiting < s.limiter.maxCount

instance (s : RoverState) (a : RoverStep) : Decidable (RegistersBelow s a) :=
  inferInstanceAs (Decidable ((s.joining a).isSome = true →
    s.limiter.count + s.awaiting < s.limiter.maxCount))

/-! ## Registered rovers are sessions -/

variable {mounts : List Mount} {sessions : List Session}

/-- The clients in the snapshots belong to different sessions. -/
theorem Known.nodup_refs (h : Known mounts sessions) :
    (mounts.flatMap fun mt => mt.point.snapshot.map Client.ref).Nodup := by
  refine List.nodup_flatMap.mpr ⟨fun mt hmt => ?_, ?_⟩
  · obtain ⟨m, hm⟩ := List.getElem?_of_mem hmt
    refine (h.rep m mt hm).nodup_snapshot.map_on fun d hd d' hd' href => ?_
    obtain ⟨x, hx, rfl, -⟩ := h.snapshot m mt hm d hd
    obtain ⟨x', hx', rfl, -⟩ := h.snapshot m mt hm d' hd'
    rw [href] at hx
    rw [Option.some.inj (hx.symm.trans hx')]
  · -- a session is in the snapshots of one mountpoint only
    refine List.pairwise_iff_getElem.mpr fun m m' hm hm' hlt r hr hr' => ?_
    obtain ⟨d, hd, rfl⟩ := List.mem_map.mp hr
    obtain ⟨d', hd', href⟩ := List.mem_map.mp hr'
    obtain ⟨x, hx, -, hxm, -⟩ := h.snapshot m _ (List.getElem?_eq_getElem hm) d hd
    obtain ⟨x', hx', -, hxm', -⟩ := h.snapshot m' _ (List.getElem?_eq_getElem hm') d' hd'
    rw [href] at hx'
    obtain rfl := Option.some.inj (hx.symm.trans hx')
    omega

/-- The rovers registered over all mountpoints are registered sessions. -/
theorem registered_le {s : RoverState} (h : Known s.mounts s.sessions) :
    s.registered ≤ s.sessions.countP (·.pc.registered) := by
  -- the snapshot of a mountpoint is as long as its map
  have hlen : s.registered =
      (s.mounts.flatMap fun mt => mt.point.snapshot.map Client.ref).length := by
    rw [List.length_flatMap, RoverState.registered]
    refine congrArg List.sum (List.map_congr_left fun mt hmt => ?_)
    obtain ⟨m, hm⟩ := List.getElem?_of_mem hmt
    rw [List.length_map, (h.rep m mt hm).snapshot_perm.length_eq, GoMap.length_values]
  rw [hlen]
  refine length_le_countP h.nodup_refs fun r hr => ?_
  obtain ⟨mt, hmt, hr⟩ := List.mem_flatMap.mp hr
  obtain ⟨d, hd, rfl⟩ := List.mem_map.mp hr
  obtain ⟨m, hm⟩ := List.getElem?_of_mem hmt
  obtain ⟨x, hx, -, -, hreg⟩ := h.snapshot m mt hm d hd
  exact ⟨x, hx, hreg⟩

theorem countP_registered_le (sessions : List Session) :
    sessions.countP (·.pc.registered) ≤
      sessions.countP (·.pc.awaitsAdd) + sessions.countP (·.pc.counted) := by
  induction sessions with
  | nil => simp
  | cons x l ih =>
    simp only [List.countP_cons]
    cases hreg : x.pc.registered with
    | false => simp; omega
    | true =>
      have hone := RoverPC.awaitsAdd_or_counted hreg
      cases ha : x.pc.awaitsAdd <;> cases hc : x.pc.counted <;> simp_all <;> omega

/-! ## The counter -/

/-- The limiter counts the sessions between `Add` and `Release`; with those that await `Add` they
are within the limit. -/
structure Limited (maxClients : ℤ) (s : RoverState) : Prop where
  maxCount : s.limiter.maxCount = maxClients
  count : s.limiter.count = s.counted
  slots : (s.counted : ℤ) + s.awaiting ≤ maxClients

namespace Limited

variable {maxClients : ℤ} {s : RoverState} {i : ℕ} {x : Session}

/-- A session moves, the limiter follows, and the slots taken stay within the limit. -/
theorem setSession (h : Limited maxClients s) (hx : s.sessions[i]? = some x) {x' : Session}
    {s' : RoverState} (hs : s'.sessions = s.sessions.set i x')
    (hmax : s'.limiter.maxCount = s.limiter.maxCount)
    (hcount : s'.limiter.count + x.pc.counted.toNat = s.limiter.count + x'.pc.counted.toNat)
    (hslots : s.limiter.count + s.awaiting + x'.pc.counted.toNat + x'.pc.awaitsAdd.toNat ≤
      maxClients + x.pc.counted.toNat + x.pc.awaitsAdd.toNat) : Limited maxClients s' := by
  have hc : s'.counted + x.pc.counted.toNat = s.counted + x'.pc.counted.toNat :=
    (congrArg (List.countP _ · + _) hs).trans (countP_set (fun x : Session => x.pc.counted) hx)
  have ha : s'.awaiting + x.pc.awaitsAdd.toNat = s.awaiting + x'.pc.awaitsAdd.toNat :=
    (congrArg (List.countP _ · + _) hs).trans (countP_set (fun x : Session => x.pc.awaitsAdd) hx)
  have hold := h.count
  refine ⟨hmax.trans h.maxCount, ?_, ?_⟩
  · omega
  · omega

/-- A session moves and keeps its place in the counts. -/
theorem setSession_same (h : Limited maxClients s) (hx : s.sessions[i]? = some x) (x' : Session)
    {s' : RoverState} (hs : s'.sessions = s.sessions.set i x') (hl : s'.limiter = s.limiter)
    (hcounted : x'.pc.counted = x.pc.counted) (hreg : x'.pc.awaitsAdd = x.pc.awaitsAdd) :
    Limited maxClients s' := by
  have hslots := h.slots
  have hold := h.count
  refine h.setSession hx hs (by rw [hl]) (by rw [hl, hcounted]) ?_
  rw [hcounted, hreg]
  omega

/-- Nothing happens to the sessions. -/
theorem of_eq (h : Limited maxClients s) {s' : RoverState} (hs : s'.sessions = s.sessions)
    (hl : s'.limiter = s.limiter) : Limited maxClients s' := by
  obtain ⟨h₁, h₂, h₃⟩ := h
  unfold RoverState.counted at h₂ h₃
  unfold RoverState.awaiting at h₃
  rw [← hs] at h₂ h₃
  rw [← hl] at h₁ h₂
  exact ⟨h₁, h₂, h₃⟩

/-- Every effect of a step that meets the condition keeps the rovers within the limit. -/
theorem effect (h : Limited maxClients s) {a : RoverStep} {s' : RoverState}
    (hguard : RegistersBelow s a) (he : RoverEffect s a s') : Limited maxClients s' := by
  cases he with
  | connect mount id userID =>
    obtain ⟨h₁, h₂, h₃⟩ := h
    refine ⟨h₁, ?_, ?_⟩
    · simpa [RoverState.counted, newSession, RoverPC.counted] using h₂
    · simpa [RoverState.counted, RoverState.awaiting, newSession, RoverPC.counted,
        RoverPC.awaitsAdd, RoverPC.registered] using h₃
  | moves hx hmove =>
    exact h.setSession_same hx _ rfl rfl hmove.counted
      (RoverPC.awaitsAdd_congr hmove.registered hmove.counted)
  | teardowns t => exact h.of_eq rfl rfl
  | @addClient i x mt ord r c mp ha hx hmt hpc hc hadd =>
    -- the one step that takes a slot: the condition says that there is one
    have hjoins : s.Joins a x.mount c := ⟨i, ord, r, x, mt, mp, ha, hx, hpc, rfl, hmt, hc, hadd⟩
    have hbelow : s.limiter.count + s.awaiting < s.limiter.maxCount := by
      obtain ⟨y, hy, -⟩ := hjoins.joining
      exact hguard (Option.isSome_iff_exists.mpr ⟨y, hy⟩)
    rw [h.maxCount] at hbelow
    refine h.setSession hx rfl rfl (by rw [hpc]; rfl) ?_
    simp only [hpc, RoverPC.awaitsAdd, RoverPC.counted, RoverPC.registered, Bool.not_false,
      Bool.and_self, Bool.and_true, Bool.toNat_false, Bool.toNat_true]
    omega
  | add hx hpc =>
    -- the handler stops awaiting and is counted instead
    have hslots := h.slots
    have hold := h.count
    refine h.setSession hx rfl rfl ?_ ?_
    · simp only [hpc, RoverPC.counted, Bool.toNat_false, Bool.toNat_true, GlobalLimiter.add]
      omega
    · simp only [hpc, RoverPC.awaitsAdd, RoverPC.counted, RoverPC.registered, Bool.not_false,
        Bool.not_true, Bool.and_self, Bool.and_false, Bool.toNat_false, Bool.toNat_true]
      omega
  | removeClient ord hx hmt hpc =>
    -- the client is counted until `Release`
    refine h.setSession_same hx _ rfl rfl ?_ ?_
    · rw [hpc]
      rfl
    · rw [hpc]
      rfl
  | release hx hpc =>
    have hslots := h.slots
    have hold := h.count
    refine h.setSession hx rfl rfl ?_ ?_
    · simp only [hpc, RoverPC.counted, Bool.toNat_false, Bool.toNat_true, GlobalLimiter.release]
      omega
    · simp only [hpc, RoverPC.awaitsAdd, RoverPC.counted, RoverPC.registered, Bool.not_false,
        Bool.not_true, Bool.and_self, Bool.false_and, Bool.toNat_false, Bool.toNat_true]
      omega
  | operate t hmt hop => exact h.of_eq rfl rfl
  | broadcast pkt hmt hpc => exact h.of_eq rfl rfl
  | finish hmt hpc => exact h.of_eq rfl rfl
  | enter hmt hpc hx hdone => exact h.of_eq rfl rfl
  | skip hmt hpc hx hdone => exact h.of_eq rfl rfl
  | accept hmt hpc hx hacc =>
    exact h.setSession_same hx _ rfl rfl hacc.counted
      (RoverPC.awaitsAdd_congr hacc.registered hacc.counted)
  | refuse hmt hpc => exact h.of_eq rfl rfl
  | slowClients n hmt hpc => exact h.of_eq rfl rfl
  | kickCount hmt hpc => exact h.of_eq rfl rfl
  | @markSlow _ _ _ _ _ x _ _ hx _ =>
    exact h.setSession_same hx { x with slow := true } rfl rfl rfl rfl

end Limited

/-- **The global rover limit** holds in every run in which no handler registers its client while
the counted rovers and the handlers between `AddClient` and `Add` already make up `max_clients`:
neither the rovers registered over all mountpoints nor the count of the limiter exceed
`max_clients`. -/
theorem registered_le_maxClients {maxClients : ℤ} (hmax : 1 ≤ maxClients) {s : RoverState}
    (h : ((roverSystem maxClients).restrict RegistersBelow).Reachable s) :
    (s.registered : ℤ) ≤ maxClients ∧ s.limiter.count ≤ maxClients := by
  have hknown := roverSystem_known h.of_restrict
  have hlim : Limited maxClients s := by
    refine System.Reachable.restrict_invariant ?_ (fun s a s' _ hs hguard hstep => ?_) h
    · rintro s ⟨mounts, -, rfl⟩
      exact ⟨rfl, rfl, by simp [RoverState.counted, RoverState.awaiting]; omega⟩
    · exact hs.effect hguard (step_effect hstep)
  have hreg := registered_le hknown
  have hle := countP_registered_le s.sessions
  have hslots := hlim.slots
  have hcount := hlim.count
  unfold RoverState.counted at hslots hcount
  unfold RoverState.awaiting at hslots
  constructor
  · omega
  · omega

/-- The source connects, and two rovers. -/
def twoRovers : List RoverStep :=
  [.operate 0 (.setSource ⟨0, ascii "s", 0⟩), .connect 0 (ascii "a") 0, .connect 0 (ascii "b") 0]

/-- The checks of the handler of session `i`, up to `AddClient`. -/
def checks (i : ℕ) : List RoverStep := List.replicate 3 (.handler i .stored .ok)

/-- The second rover is checked once the first is served, and refused. -/
theorem registered_le_maxClients_inTurn :
    ∃ s, ((roverSystem 1).restrict RegistersBelow).run (oneMount 1)
        (twoRovers ++ checks 0 ++ checks 0 ++ checks 1) = some s ∧ s.registered = 1 ∧
      (s.registered : ℤ) ≤ 1 ∧ s.limiter.count ≤ 1 := by
  have hmax : (1 : ℤ) ≤ 1 := by decide
  obtain ⟨s, hs, hreg⟩ : ∃ s, ((roverSystem 1).restrict RegistersBelow).run (oneMount 1)
      (twoRovers ++ checks 0 ++ checks 0 ++ checks 1) = some s ∧ s.registered = 1 :=
    ⟨_, rfl, rfl⟩
  exact ⟨s, hs, hreg, registered_le_maxClients hmax (.of_run _ (oneMount_init 1) hs)⟩

/-- With a limit of 1, two handlers pass the check before either of them counts its rover: two
rovers are registered, and then counted. -/
theorem registered_not_le_maxClients :
    ¬ ∀ maxClients : ℤ, 1 ≤ maxClients → ∀ s, (roverSystem maxClients).Reachable s →
      (s.registered : ℤ) ≤ maxClients ∧ s.limiter.count ≤ maxClients := by
  intro h
  let add (i : ℕ) : RoverStep := .handler i .stored .ok
  obtain ⟨s, hs, hreg⟩ : ∃ s, (roverSystem 1).run (oneMount 1)
      (twoRovers ++ checks 0 ++ checks 1 ++ [add 0, add 1, add 0, add 1]) = some s ∧
        s.registered = 2 := ⟨_, rfl, rfl⟩
  have hle := (h 1 (by decide) s (.of_run _ (oneMount_init 1) hs)).1
  rw [hreg] at hle
  exact absurd hle (by decide)

end NtripCaster
