import NtripCaster.Source.Slot

/-!
# Sources and their successors

Several removing calls may be made for one session, in any order and after a successor has taken
the slot: its own deferred `ClearSource`, that of an admin, `KickSourceByUser`, `DisconnectAll`.
None of them touches the successor, or a rover that was registered under it.

## Main definitions

* `CasterState.TookAfter`, `CasterState.JoinedAfter`: what has happened after what
* `CasterState.LogInv`, `CasterState.KickInv`: what the log says about slots, and whom calls kick
* `CasterState.SlotSafe`, `CasterState.SlotStepSafe`: the guarantees of a state and of a step

## Main results

* `casterSystem_logInv`, `casterSystem_kickInv`: the invariants hold in every reachable state
* `slot_safe`: so do the guarantees
-/

namespace NtripCaster

open Transition CasterState

/-! ## Who has taken a slot after whom -/

namespace CasterState

variable {s s' : CasterState} {a : CasterStep}

/-- Source `b` has taken a slot after source `k`. -/
def TookAfter (s : CasterState) (k b : ℕ) : Prop :=
  [SlotEvent.took k, .took b].Sublist s.log

/-- Rover `i` has been registered after source `b` took its slot. -/
def JoinedAfter (s : CasterState) (b i : ℕ) : Prop :=
  [SlotEvent.took b, .joined i].Sublist s.log

/-- Only admitted sessions have taken a slot, and who is in a slot is the last to have taken it. -/
structure LogInv (s : CasterState) : Prop where
  took : ∀ k, .took k ∈ s.log → ∃ x, s.sources[k]? = some x ∧ x.pc.admitted = true
  holder : ∀ m src, s.rovers.slot m = some src → .took src.ref ∈ s.log
  last : ∀ m src, s.rovers.slot m = some src → ∀ (b : ℕ) (y : SourceSession),
    s.sources[b]? = some y → y.mount = m → ¬ s.TookAfter src.ref b

theorem LogInv.init {r : RoverState} (h : ∀ mt ∈ r.mounts, mt.Fresh) :
    LogInv ⟨r, [], [], []⟩ where
  took k hk := by cases hk
  holder m src hsrc := by
    obtain ⟨x, hx, -⟩ := (SlotInv.init h).holder m src hsrc
    cases hx
  last m src hsrc b y hy := by cases hy

theorem TookAfter.mem {k b : ℕ} (h : s.TookAfter k b) : .took k ∈ s.log ∧ .took b ∈ s.log :=
  ⟨h.subset List.mem_cons_self, h.subset (List.mem_cons_of_mem _ List.mem_cons_self)⟩

/-- A step that takes no slot leaves it as it is who has taken a slot after whom. -/
theorem tookAfter_of_notes {l : List SlotEvent} (hlog : s'.log = s.log ++ l)
    (hl : ∀ e ∈ l, s.Notes e) {k b : ℕ} (h : s'.TookAfter k b) : s.TookAfter k b := by
  rw [TookAfter, hlog, pair_sublist_append] at h
  rcases h with h | ⟨-, hb⟩ | h
  · exact h
  · exact absurd (hl _ hb) id
  · exact absurd (hl _ (h.subset List.mem_cons_self)) id

/-- A source takes a slot after those that have taken one. -/
theorem tookAfter_of_took {k₀ : ℕ} (hlog : s'.log = s.log ++ [.took k₀]) {k b : ℕ}
    (h : s'.TookAfter k b) : s.TookAfter k b ∨ .took k ∈ s.log ∧ b = k₀ := by
  rw [TookAfter, hlog, pair_sublist_append] at h
  rcases h with h | ⟨hk, hb⟩ | h
  · exact .inl h
  · exact .inr ⟨hk, SlotEvent.took.inj (List.mem_singleton.mp hb)⟩
  · exact absurd h.length_le (Nat.not_succ_le_self 1)

/-- A step takes a slot or none. -/
theorem SlotStep.log_cases (h : SlotStep s a s') :
    (∃ k x, s.sources[k]? = some x ∧ x.pc = .setSource ∧ s'.log = s.log ++ [.took k]) ∨
      ∃ l, s'.log = s.log ++ l ∧ ∀ e ∈ l, s.Notes e := by
  cases h with
  | quiet hslot hsources hcalls hlog => exact .inr hlog
  | took ha hx hpc hfree hslot hsources hcalls hlog => exact .inl ⟨_, _, hx, hpc, hlog⟩
  | leave hx hpc => exact .inr ⟨[], (List.append_nil _).symm, nofun⟩
  | hit kick ha hc hpc hsrc hop hslot hsources hcalls hlog =>
    exact .inr ⟨[], hlog.trans (List.append_nil _).symm, nofun⟩
  | miss kick hc hpc hop hslot hsources hcalls hlog =>
    exact .inr ⟨[], hlog.trans (List.append_nil _).symm, nofun⟩

namespace LogInv

/-- A session that has taken a slot is not about to take one. -/
theorem not_took (h : s.LogInv) {k : ℕ} {x : SourceSession} (hx : s.sources[k]? = some x)
    (hpc : x.pc.admitted = false) : .took k ∉ s.log := by
  intro hk
  obtain ⟨y, hy, hadm⟩ := h.took k hk
  rw [← Option.some.inj (hx.symm.trans hy), hpc] at hadm
  cases hadm

/-- Who is logged to have taken a slot has got past `SetSource`. -/
theorem step_took (h : s.LogInv) (hs : SlotStep s a s') :
    ∀ k, .took k ∈ s'.log → ∃ x, s'.sources[k]? = some x ∧ x.pc.admitted = true := by
  intro k hk
  -- who had taken a slot is still admitted
  have hold : .took k ∈ s.log → ∃ x, s'.sources[k]? = some x ∧ x.pc.admitted = true := by
    intro hk
    obtain ⟨x, hx, hadm⟩ := h.took k hk
    obtain ⟨x', hx', hage⟩ := hs.ages.exists_getElem? SourceSession.Ages.refl hx
    exact ⟨x', hx', hage.admitted hadm⟩
  cases hs with
  | quiet hslot hsources hcalls hlog =>
    obtain ⟨l, hlog, hl⟩ := hlog
    rw [hlog] at hk
    rcases List.mem_append.mp hk with hk | hk
    · exact hold hk
    · exact absurd (hl _ hk) id
  | @took _ k₀ x ha hx hpc hfree hslot hsources hcalls hlog =>
    rw [hlog] at hk
    rcases List.mem_append.mp hk with hk | hk
    · exact hold hk
    · obtain rfl := SlotEvent.took.inj (List.mem_singleton.mp hk)
      rw [hsources]
      exact ⟨_, getElem?_set_of_eq_some hx, rfl⟩
  | leave hx hpc => exact hold hk
  | hit kick ha hc hpc hsrc hop hslot hsources hcalls hlog => exact hold (hlog ▸ hk)
  | miss kick hc hpc hop hslot hsources hcalls hlog => exact hold (hlog ▸ hk)

/-- Who holds a slot has taken it, and so it is logged. -/
theorem step_holder (h : s.LogInv) (hinv : s.SlotInv) (hs : SlotStep s a s') :
    ∀ m src, s'.rovers.slot m = some src → .took src.ref ∈ s'.log := by
  intro m src hsrc
  cases hs with
  | quiet hslot hsources hcalls hlog =>
    obtain ⟨l, hlog, -⟩ := hlog
    rw [hslot] at hsrc
    rw [hlog]
    exact List.mem_append_left l (h.holder m src hsrc)
  | @took _ k x ha hx hpc hfree hslot hsources hcalls hlog =>
    rw [hslot] at hsrc
    rw [hlog]
    split at hsrc
    · obtain rfl := Option.some.inj hsrc
      rw [hinv.ref k x hx]
      exact List.mem_append_right _ List.mem_cons_self
    · exact List.mem_append_left _ (h.holder m src hsrc)
  | leave hx hpc => exact h.holder m src hsrc
  | hit kick ha hc hpc hsrc₀ hop hslot hsources hcalls hlog =>
    rw [hslot] at hsrc
    rw [hlog]
    split at hsrc
    · cases hsrc
    · exact h.holder m src hsrc
  | miss kick hc hpc hop hslot hsources hcalls hlog =>
    rw [hslot] at hsrc
    rw [hlog]
    exact h.holder m src hsrc

/-- Nobody takes a slot after its holder: it would have to be free. -/
theorem step_last (h : s.LogInv) (hinv : s.SlotInv) (hs : SlotStep s a s') :
    ∀ m src, s'.rovers.slot m = some src → ∀ (b : ℕ) (y : SourceSession),
      s'.sources[b]? = some y → y.mount = m → ¬ s'.TookAfter src.ref b := by
  intro m src hsrc b y hy hm hafter
  -- it was so before the step, of the session that `y` was
  have hold : s.rovers.slot m = some src → ¬ s.TookAfter src.ref b := by
    intro hsrc hafter
    obtain ⟨z, hz, -⟩ := h.took b hafter.mem.2
    obtain ⟨z', hz', hage⟩ := hs.ages.exists_getElem? SourceSession.Ages.refl hz
    obtain rfl := Option.some.inj (hz'.symm.trans hy)
    exact h.last m src hsrc b z hz (hage.mount.symm.trans hm) hafter
  cases hs with
  | quiet hslot hsources hcalls hlog =>
    obtain ⟨l, hlog, hl⟩ := hlog
    exact hold ((hslot m).symm.trans hsrc) (tookAfter_of_notes hlog hl hafter)
  | @took _ k x ha hx hpc hfree hslot hsources hcalls hlog =>
    rw [hslot] at hsrc
    split at hsrc
    next hmx =>
      obtain rfl := Option.some.inj hsrc
      rw [hinv.ref k x hx] at hafter
      have hnot := h.not_took hx (by rw [hpc]; rfl)
      rcases tookAfter_of_took hlog hafter with hafter | ⟨hk, -⟩
      · exact hnot hafter.mem.1
      · exact hnot hk
    next hmx =>
      rcases tookAfter_of_took hlog hafter with hafter | ⟨-, rfl⟩
      · exact hold hsrc hafter
      · rw [hsources, getElem?_set_of_eq_some hx] at hy
        obtain rfl := Option.some.inj hy
        exact hmx hm.symm
  | leave hx hpc => exact hold hsrc hafter
  | hit kick ha hc hpc hsrc₀ hop hslot hsources hcalls hlog =>
    rw [hslot] at hsrc
    rw [TookAfter, hlog] at hafter
    split at hsrc
    · cases hsrc
    · exact hold hsrc hafter
  | miss kick hc hpc hop hslot hsources hcalls hlog =>
    rw [hslot] at hsrc
    rw [TookAfter, hlog] at hafter
    exact hold hsrc hafter

theorem step (h : s.LogInv) (hinv : s.SlotInv) (hs : SlotStep s a s') : s'.LogInv where
  took := h.step_took hs
  holder := h.step_holder hinv hs
  last := h.step_last hinv hs

end LogInv

end CasterState

theorem casterSystem_logInv {maxClients : ℤ} {s : CasterState}
    (h : (casterSystem maxClients).Reachable s) : s.LogInv := by
  refine h.invariant ?_ fun s a s' hreach hs hstep =>
    hs.step (casterSystem_slotInv hreach) (slotStep (step_effect hstep))
  rintro s ⟨mounts, hfresh, rfl⟩
  exact .init hfresh

/-! ## Whom a removing call kicks -/

namespace CasterState

variable {s s' : CasterState} {a : CasterStep}

/-- The call has still to kick the client. -/
def Kicks (s : CasterState) (c : RemovalCall) (d : Client) : Prop :=
  (∃ l, c.pc = .stop l ∧ d ∈ l) ∨ ∃ i, c.pc = .kick i ∧ s.rovers.Kicking i d

/-- The clients that a call has found were registered before any successor of the source that it
has removed took the slot. Without a source, only `DisconnectAll` finds clients. -/
def KicksOld (s : CasterState) (c : RemovalCall) (d : Client) : Prop :=
  (∃ k, c.removed = some k ∧ s.rovers.Joined c.mount d.ref ∧
    ∀ (b : ℕ) (y : SourceSession), s.sources[b]? = some y → y.mount = c.mount →
      s.TookAfter k b → ¬ s.JoinedAfter b d.ref) ∨
  c.removed = none ∧ c.op = .disconnectAll

/-- The loops of kicks have been started, and kick old clients. -/
structure KickInv (s : CasterState) : Prop where
  started : ∀ (j : ℕ) (c : RemovalCall) (i : ℕ), s.calls[j]? = some c → c.pc = .kick i →
    i < s.rovers.teardowns.length
  old : ∀ (j : ℕ) (c : RemovalCall) (d : Client), s.calls[j]? = some c → s.Kicks c d →
    s.KicksOld c d

/-- A call that is at its loop of kicks has come from its `Stop`. -/
theorem started_step (he : CasterEffect s a s') (h : ∀ (j : ℕ) (c : RemovalCall) (i : ℕ),
      s.calls[j]? = some c → c.pc = .kick i → i < s.rovers.teardowns.length) {j i : ℕ}
    {c : RemovalCall} (hc : s'.calls[j]? = some c) (hpc : c.pc = .kick i) :
    i < s'.rovers.teardowns.length := by
  have hold : s.calls[j]? = some c → i < s'.rovers.teardowns.length := fun hc =>
    (h j c i hc hpc).trans_le (rovers_goes he).teardowns
  cases he with
  | rover ha hb hr => exact hold hc
  | connect mount id userID hid => exact hold hc
  | moves hx hm => exact hold hc
  | read ha hx hpc₀ => exact hold hc
  | took ha hx hmt hpc₀ hfree => exact hold hc
  | leave hx hpc₀ =>
    rcases getElem?_snoc_eq_some hc with hc | ⟨-, rfl⟩
    · exact hold hc
    · cases hpc
  | broadcast hx hpc₀ hb => exact hold hc
  | deliver hx hb => exact hold hc
  | request hremoved hpc₀ =>
    rcases getElem?_snoc_eq_some hc with hc | ⟨-, rfl⟩
    · exact hold hc
    · rcases hpc₀ with hpc₀ | ⟨hpc₀, -⟩ <;> (rw [hpc₀] at hpc; cases hpc)
  | sourceID srcID hc₀ hpc₀ =>
    rcases getElem?_set_eq_some hc with ⟨-, rfl⟩ | ⟨-, hc⟩
    · cases hpc
    · exact hold hc
  | enter ord ord' ha hc₀ hmt hpc₀ =>
    rcases getElem?_set_eq_some hc with ⟨-, rfl⟩ | ⟨-, hc⟩
    · cases hpc
    · exact hold hc
  | kick hc₀ hpc₀ hclosed =>
    rcases getElem?_set_eq_some hc with ⟨-, rfl⟩ | ⟨-, hc⟩
    · obtain rfl := RemovalPC.kick.inj hpc
      simp
    · exact hold hc
  | returned hc₀ hpc₀ hi =>
    rcases getElem?_set_eq_some hc with ⟨-, rfl⟩ | ⟨-, hc⟩
    · cases hpc
    · exact hold hc

/-- Whom a call has to kick after a step it had to kick before, or it has just come from its
critical section. -/
theorem kicks_step (he : CasterEffect s a s') (h : s.KickInv) {j : ℕ} {c : RemovalCall} {d : Client}
    (hc : s'.calls[j]? = some c) (hd : s'.Kicks c d) :
    (∃ c₀, s.calls[j]? = some c₀ ∧ s.Kicks c₀ d ∧ c.mount = c₀.mount ∧ c.removed = c₀.removed ∧
      c.op = c₀.op) ∨
    s'.log = s.log ∧ ∃ mt, s.rovers.mounts[c.mount]? = some mt ∧
      d ∈ mt.point.clientsByID.values ∧
        ((∃ src, mt.point.source = some src ∧ c.removed = some src.ref) ∨
          c.removed = none ∧ c.op = .disconnectAll) := by
  have hold : s.calls[j]? = some c → ∃ c₀, s.calls[j]? = some c₀ ∧ s.Kicks c₀ d ∧
      c.mount = c₀.mount ∧ c.removed = c₀.removed ∧ c.op = c₀.op := by
    intro hc
    refine ⟨c, hc, ?_, rfl, rfl, rfl⟩
    rcases hd with hd | ⟨i, hpc, hk⟩
    · exact .inl hd
    · exact .inr ⟨i, hpc, (rovers_goes he).kicking i d (h.started j c i hc hpc) hk⟩
  cases he with
  | rover ha hb hr => exact .inl (hold hc)
  | connect mount id userID hid => exact .inl (hold hc)
  | moves hx hm => exact .inl (hold hc)
  | read ha hx hpc₀ => exact .inl (hold hc)
  | took ha hx hmt hpc₀ hfree => exact .inl (hold hc)
  | leave hx hpc₀ =>
    rcases getElem?_snoc_eq_some hc with hc | ⟨-, rfl⟩
    · exact .inl (hold hc)
    · rcases hd with ⟨l, hpc, -⟩ | ⟨i, hpc, -⟩ <;> cases hpc
  | broadcast hx hpc₀ hb => exact .inl (hold hc)
  | deliver hx hb => exact .inl (hold hc)
  | request hremoved hpc₀ =>
    rcases getElem?_snoc_eq_some hc with hc | ⟨-, rfl⟩
    · exact .inl (hold hc)
    · -- a call that is made has found nobody
      have hpc : c.pc.waiting = true := by
        rcases hpc₀ with hpc₀ | ⟨hpc₀, -⟩ <;> rw [hpc₀] <;> rfl
      rcases hd with ⟨l, hpc', -⟩ | ⟨i, hpc', -⟩ <;> (rw [hpc'] at hpc; cases hpc)
  | sourceID srcID hc₀ hpc₀ =>
    rcases getElem?_set_eq_some hc with ⟨-, rfl⟩ | ⟨-, hc⟩
    · rcases hd with ⟨l, hpc, -⟩ | ⟨i, hpc, -⟩ <;> cases hpc
    · exact .inl (hold hc)
  | @enter j₀ c₀ mt ord ord' ha hc₀ hmt hpc₀ =>
    rcases getElem?_set_eq_some hc with ⟨-, rfl⟩ | ⟨-, hc⟩
    · rcases hd with ⟨l, hpc, hd⟩ | ⟨i, hpc, -⟩
      · obtain rfl := RemovalPC.stop.inj hpc
        refine .inr ⟨rfl, mt, hmt, MountPoint.mem_kick_removal hd, ?_⟩
        rcases mt.point.removal_cases c₀.op ord ord' with
          ⟨src, hsrc, -, -, ht⟩ | ⟨-, -, ht | ⟨hop, ht⟩⟩
        · exact .inl ⟨src, hsrc, by rw [ht]; rfl⟩
        · rw [ht] at hd
          cases hd
        · exact .inr ⟨by rw [ht]; rfl, hop⟩
      · cases hpc
    · exact .inl (hold hc)
  | @kick j₀ c₀ kick hc₀ hpc₀ hclosed =>
    rcases getElem?_set_eq_some hc with ⟨rfl, rfl⟩ | ⟨-, hc⟩
    · rcases hd with ⟨l, hpc, -⟩ | ⟨i, hpc, l, hl, hd⟩
      · cases hpc
      · obtain rfl := RemovalPC.kick.inj hpc
        obtain rfl := Option.some.inj (List.getElem?_concat_length.symm.trans hl)
        exact .inl ⟨c₀, hc₀, .inl ⟨kick, hpc₀, hd⟩, rfl, rfl, rfl⟩
    · exact .inl (hold hc)
  | returned hc₀ hpc₀ hi =>
    rcases getElem?_set_eq_some hc with ⟨-, rfl⟩ | ⟨-, hc⟩
    · rcases hd with ⟨l, hpc, -⟩ | ⟨i, hpc, -⟩ <;> cases hpc
    · exact .inl (hold hc)

/-- A client that is registered is not registered again, least of all after a successor. -/
theorem joinedAfter_step (hknown : Known s.rovers.mounts s.rovers.sessions) (hs : SlotStep s a s')
    {m i b : ℕ} (hi : s.rovers.Joined m i) (h : s'.JoinedAfter b i) : s.JoinedAfter b i := by
  rcases hs.log_cases with ⟨k, x, -, -, hlog⟩ | ⟨l, hlog, hl⟩
  · rw [JoinedAfter, hlog, pair_sublist_append] at h
    rcases h with h | ⟨-, h⟩ | h
    · exact h
    · cases List.mem_singleton.mp h
    · exact absurd h.length_le (Nat.not_succ_le_self 1)
  · rw [JoinedAfter, hlog, pair_sublist_append] at h
    rcases h with h | ⟨-, h⟩ | h
    · exact h
    · obtain ⟨x, hx, href, hadm⟩ := hl _ h
      obtain ⟨n, hn⟩ := List.getElem?_of_mem hx
      obtain ⟨y, hy, -, hadm'⟩ := hi
      rw [hknown.ref n x hn] at href
      subst href
      rw [← Option.some.inj (hn.symm.trans hy), hadm] at hadm'
      cases hadm'
    · exact absurd (hl _ (h.subset List.mem_cons_self)) id

theorem KicksOld.step (hlogInv : s.LogInv) (hknown : Known s.rovers.mounts s.rovers.sessions)
    (he : CasterEffect s a s') {c₀ c : RemovalCall} {d : Client} (h : s.KicksOld c₀ d)
    (hmount : c.mount = c₀.mount) (hremoved : c.removed = c₀.removed) (hop : c.op = c₀.op) :
    s'.KicksOld c d := by
  rcases h with ⟨k, hk, hjoined, hold⟩ | ⟨hnone, hdisc⟩
  · refine .inl ⟨k, hremoved.trans hk, ?_, fun b y hy hm hafter hjoin => ?_⟩
    · rw [hmount]
      exact (rovers_goes he).joined _ _ hjoined
    · have hs := slotStep he
      have hjoin := joinedAfter_step hknown hs hjoined hjoin
      -- the successor had taken its slot before the step
      have hb : .took b ∈ s.log := hjoin.subset List.mem_cons_self
      obtain ⟨z, hz, hadm⟩ := hlogInv.took b hb
      obtain ⟨z', hz', hage⟩ := hs.ages.exists_getElem? SourceSession.Ages.refl hz
      obtain rfl := Option.some.inj (hz'.symm.trans hy)
      refine hold b z hz ((hage.mount.symm.trans hm).trans hmount) ?_ hjoin
      rcases hs.log_cases with ⟨k₀, x, hx, hpc, hlog⟩ | ⟨l, hlog, hl⟩
      · rcases tookAfter_of_took hlog hafter with hafter | ⟨-, rfl⟩
        · exact hafter
        · exact absurd hb (hlogInv.not_took hx (by rw [hpc]; rfl))
      · exact tookAfter_of_notes hlog hl hafter
  · exact .inr ⟨hremoved.trans hnone, hop.trans hdisc⟩

theorem KickInv.step (h : s.KickInv) (hlogInv : s.LogInv)
    (hknown : Known s.rovers.mounts s.rovers.sessions) (he : CasterEffect s a s') : s'.KickInv where
  started j c i hc hpc := started_step he h.started hc hpc
  old := by
    intro j c d hc hd
    rcases kicks_step he h hc hd with ⟨c₀, hc₀, hd₀, hmount, hremoved, hop⟩ |
      ⟨hlog, mt, hmt, hd, ⟨src, hsrc, hremoved⟩ | hnone⟩
    · exact (h.old j c₀ d hc₀ hd₀).step hlogInv hknown he hmount hremoved hop
    · have hsnap := ((hknown.rep _ mt hmt).snapshot_perm.mem_iff).mpr hd
      have hjoined := RoverState.joined_of_registered (hknown.snapshot _ mt hmt d hsnap)
      refine .inl ⟨src.ref, hremoved, (rovers_goes he).joined _ _ hjoined, ?_⟩
      intro b y hy hm hafter
      rw [TookAfter, hlog] at hafter
      obtain ⟨z, hz, -⟩ := hlogInv.took b (TookAfter.mem hafter).2
      obtain ⟨z', hz', hage⟩ := (slotStep he).ages.exists_getElem? SourceSession.Ages.refl hz
      obtain rfl := Option.some.inj (hz'.symm.trans hy)
      have hslot := (RoverState.slot_of_getElem? hmt).trans hsrc
      exact absurd hafter (hlogInv.last _ src hslot b z hz (hage.mount.symm.trans hm))
    · exact .inr hnone

end CasterState

theorem casterSystem_kickInv {maxClients : ℤ} {s : CasterState}
    (h : (casterSystem maxClients).Reachable s) : s.KickInv := by
  refine h.invariant ?_ fun s a s' hreach hs hstep =>
    hs.step (casterSystem_logInv hreach) (casterSystem_known hreach) (step_effect hstep)
  rintro s ⟨mounts, -, rfl⟩
  refine ⟨fun j c i hc => ?_, fun j c d hc => ?_⟩
  · cases hc
  · cases hc

/-! ## The guarantees -/

/-- What holds of slots, sessions and removing calls in every state. -/
structure CasterState.SlotSafe (s : CasterState) : Prop where
  /-- At most one session is in the slot of a mountpoint. -/
  exclusive : ∀ (k k' : ℕ) (x x' : SourceSession), s.sources[k]? = some x →
    s.sources[k']? = some x' → x.mount = x'.mount → s.Holds x → s.Holds x' → k = k'
  /-- `SetSource` on a slot that is taken returns `false`, and the connection is refused. -/
  refused : ∀ (k : ℕ) (x : SourceSession) (mt : Mount) (read : Option Bytes),
    s.sources[k]? = some x → x.pc = .setSource → s.rovers.mounts[x.mount]? = some mt →
      mt.point.hasSource = true → mt.point.setSource x.info = (mt.point, false) ∧
        s.step (.source k read) = some (s.setSource k { x with pc := .rejected })
  /-- A `ClearSource` removes no session but the one of its ID. -/
  cleared : ∀ c ∈ s.calls, ∀ srcID, c.op = .clearSource srcID → ∀ k ∈ c.removed,
    ∃ x, s.sources[k]? = some x ∧ x.info.id = srcID
  /-- Nor does it kick a client that was registered after a successor of that session took the
  slot; if it has removed nobody it kicks nobody. -/
  kicks : ∀ c ∈ s.calls, ∀ srcID, c.op = .clearSource srcID → ∀ d, s.Kicks c d →
    ∃ k, c.removed = some k ∧ ∀ (b : ℕ) (y : SourceSession), s.sources[b]? = some y →
      y.mount = c.mount → s.TookAfter k b → ¬ s.JoinedAfter b d.ref
  /-- Once a removing call has returned, the session that it has removed is closed. -/
  closed : ∀ c ∈ s.calls, c.pc = .returned → ∀ k ∈ c.removed,
    ∃ x, s.sources[k]? = some x ∧ x.closeOnce = .connClosed ∧ ¬ s.Holds x
  /-- A slot that is taken is taken by a session whose read loop has not ended. -/
  alive : ∀ m src, s.rovers.slot m = some src → ∃ x, s.sources[src.ref]? = some x ∧
    x.info = src ∧ x.mount = m ∧ x.pc.admitted = true ∧ x.pc ≠ .close ∧ x.pc ≠ .finished
  finished : ∀ x ∈ s.sources, x.pc = .finished → ¬ s.Holds x

/-- What every step does to slots and removing calls. -/
structure CasterState.SlotStepSafe (s s' : CasterState) : Prop where
  /-- A slot is taken by `SetSource`, when it is free. -/
  gained : ∀ m src, s'.rovers.slot m = some src → s.rovers.slot m ≠ some src →
    s.rovers.slot m = none ∧ ∃ (k : ℕ) (x : SourceSession), s.sources[k]? = some x ∧
      x.pc = .setSource ∧ x.mount = m ∧ x.info = src
  /-- It is lost in the critical section of a call that hits the session. -/
  lost : ∀ m src, s.rovers.slot m = some src → s'.rovers.slot m ≠ some src →
    s'.rovers.slot m = none ∧ ∃ (j : ℕ) (c c' : RemovalCall), s.calls[j]? = some c ∧
      c.pc = .enter ∧ c.mount = m ∧ c.op.Hits src ∧ s'.calls[j]? = some c' ∧ c'.op = c.op ∧
        c'.removed = some src.ref
  /-- The call does not forget whom it has removed. -/
  remembers : ∀ (j : ℕ) (c : RemovalCall) (k : ℕ), s.calls[j]? = some c → c.removed = some k →
    ∃ c', s'.calls[j]? = some c' ∧ c'.op = c.op ∧ c'.removed = some k

namespace CasterState

variable {s s' : CasterState} {a : CasterStep}

theorem Lives.not_ended {x : SourceSession} (h : s.Lives x) : x.pc ≠ .close ∧ x.pc ≠ .finished := by
  rcases h with h | ⟨j, c, h, -⟩
  · refine ⟨fun hpc => ?_, fun hpc => ?_⟩ <;> (rw [hpc] at h; cases h)
  · rw [h]
    exact ⟨nofun, nofun⟩

theorem SlotInv.holder_of_holds (h : s.SlotInv) {k : ℕ} {x : SourceSession}
    (hx : s.sources[k]? = some x) (hholds : s.Holds x) : s.Lives x := by
  obtain ⟨y, hy, -, -, hlives⟩ := h.holder x.mount x.info hholds
  rw [h.ref k x hx] at hy
  exact Option.some.inj (hy.symm.trans hx) ▸ hlives

/-- The guarantees of a state, from the two invariants. -/
theorem SlotInv.safe (h : s.SlotInv) (hkick : s.KickInv) : s.SlotSafe where
  exclusive := by
    intro k k' x x' hx hx' hm hholds hholds'
    rw [Holds, hm] at hholds
    have hinfo := Option.some.inj (hholds.symm.trans hholds')
    rw [← h.ref k x hx, ← h.ref k' x' hx', hinfo]
  refused := by
    intro k x mt read hx hpc hmt hsrc
    have hset : mt.point.setSource x.info = (mt.point, false) := if_pos hsrc
    refine ⟨hset, ?_⟩
    simp only [CasterState.step, CasterState.source, hx, hmt, Option.bind_some, hpc, hset,
      Bool.false_eq_true, if_false]
  cleared := by
    intro c hc srcID hop k hk
    obtain ⟨j, hj⟩ := List.getElem?_of_mem hc
    obtain ⟨x, hx, hrem⟩ := h.removed j c k hj hk
    have hhits := hrem.hits
    rw [hop] at hhits
    exact ⟨x, hx, hhits⟩
  kicks := by
    intro c hc srcID hop d hd
    obtain ⟨j, hj⟩ := List.getElem?_of_mem hc
    rcases hkick.old j c d hj hd with ⟨k, hk, -, hold⟩ | ⟨-, hdisc⟩
    · exact ⟨k, hk, hold⟩
    · rw [hop] at hdisc
      cases hdisc
  closed := by
    intro c hc hpc k hk
    obtain ⟨j, hj⟩ := List.getElem?_of_mem hc
    obtain ⟨x, hx, hrem⟩ := h.removed j c k hj hk
    exact ⟨x, hx, hrem.closed (by rw [hpc]; rfl), hrem.gone⟩
  alive := by
    intro m src hsrc
    obtain ⟨x, hx, hinfo, hmount, hlives⟩ := h.holder m src hsrc
    exact ⟨x, hx, hinfo, hmount, hlives.admitted, hlives.not_ended⟩
  finished := by
    intro x hx hpc hholds
    obtain ⟨k, hk⟩ := List.getElem?_of_mem hx
    exact (h.holder_of_holds hk hholds).not_ended.2 hpc

/-- A call that has removed somebody goes on without forgetting it. -/
theorem SlotInv.remembers (h : s.SlotInv) (hs : SlotStep s a s') {j : ℕ} {c : RemovalCall} {k : ℕ}
    (hc : s.calls[j]? = some c) (hk : c.removed = some k) :
    ∃ c', s'.calls[j]? = some c' ∧ c'.op = c.op ∧ c'.removed = some k := by
  -- such a call is past its critical section
  have hpast : c.pc.waiting ≠ true := fun hw => by
    rw [h.waiting j c hc hw] at hk
    cases hk
  have hne : c.pc ≠ .enter := fun hpc => hpast (by rw [hpc]; rfl)
  cases hs with
  | quiet hslot hsources hcalls hlog =>
    obtain ⟨c', hc', hgo⟩ := hcalls.exists_getElem? (RemovalCall.Goes.refl _) hc
    exact ⟨c', hc', (hgo.op fun hpc => hpast (by rw [hpc]; rfl)).1, hgo.removed.trans hk⟩
  | took ha hx hpc hfree hslot hsources hcalls hlog => exact ⟨c, by rw [hcalls]; exact hc, rfl, hk⟩
  | leave hx hpc =>
    exact ⟨c, getElem?_append_of_eq_some hc, rfl, hk⟩
  | @hit _ i d src kick ha hd hpc hsrc hop hslot hsources hcalls hlog =>
    rw [hcalls]
    refine exists_getElem?_set hd ⟨c, hc, rfl, hk⟩ fun hji => ?_
    subst hji
    obtain rfl := Option.some.inj (hd.symm.trans hc)
    exact absurd hpc hne
  | @miss _ i d kick hd hpc hop hslot hsources hcalls hlog =>
    rw [hcalls]
    refine exists_getElem?_set hd ⟨c, hc, rfl, hk⟩ fun hji => ?_
    subst hji
    obtain rfl := Option.some.inj (hd.symm.trans hc)
    exact absurd hpc hne

/-- The guarantees of a step, from what it does to the slots. -/
theorem SlotInv.stepSafe (h : s.SlotInv) (hs : SlotStep s a s') : s.SlotStepSafe s' where
  gained := by
    intro m src hsrc hne
    cases hs with
    | quiet hslot hsources hcalls hlog => exact absurd ((hslot m).symm.trans hsrc) hne
    | @took _ k x ha hx hpc hfree hslot hsources hcalls hlog =>
      rw [hslot] at hsrc
      split at hsrc
      next hm =>
        subst hm
        exact ⟨hfree, k, x, hx, hpc, rfl, Option.some.inj hsrc⟩
      next => exact absurd hsrc hne
    | leave hx hpc => exact absurd hsrc hne
    | hit kick ha hc hpc hsrc₀ hop hslot hsources hcalls hlog =>
      rw [hslot] at hsrc
      split at hsrc
      · cases hsrc
      · exact absurd hsrc hne
    | miss kick hc hpc hop hslot hsources hcalls hlog =>
      exact absurd ((hslot m).symm.trans hsrc) hne
  lost := by
    intro m src hsrc hne
    cases hs with
    | quiet hslot hsources hcalls hlog => exact absurd ((hslot m).trans hsrc) hne
    | @took _ k x ha hx hpc hfree hslot hsources hcalls hlog =>
      rw [hslot] at hne
      split at hne
      next hm =>
        rw [hm, hfree] at hsrc
        cases hsrc
      next => exact absurd hsrc hne
    | leave hx hpc => exact absurd hsrc hne
    | @hit _ j c info kick ha hc hpc hinfo hop hslot hsources hcalls hlog =>
      rw [hslot] at hne ⊢
      split at hne
      next hm =>
        subst hm
        obtain rfl := Option.some.inj (hinfo.symm.trans hsrc)
        have hc' : s'.calls[j]? = some { c with pc := .stop kick, removed := some info.ref } := by
          rw [hcalls]
          exact getElem?_set_of_eq_some hc
        exact ⟨if_pos rfl, j, c, _, hc, hpc, rfl, hop, hc', rfl, rfl⟩
      next => exact absurd hsrc hne
    | miss kick hc hpc hop hslot hsources hcalls hlog => exact absurd ((hslot m).trans hsrc) hne
  remembers j c k hc hk := h.remembers hs hc hk

end CasterState

/-- **One source at a time, and no stale teardown**: in every run, a slot has one holder at most,
whose read loop has not ended; `SetSource` on a slot that is taken changes nothing; a removing call
takes off only the source that it was made for, closes it before it returns, and spares the
successor and its rovers. -/
theorem slot_safe {maxClients : ℤ} {s : CasterState} (h : (casterSystem maxClients).Reachable s) :
    s.SlotSafe ∧ ∀ a s', (casterSystem maxClients).step s a = some s' → s.SlotStepSafe s' := by
  have hinv := casterSystem_slotInv h
  refine ⟨hinv.safe (casterSystem_kickInv h), fun a s' hstep => ?_⟩
  exact hinv.stepSafe (slotStep (step_effect hstep))

/-- A server with one mountpoint, before anybody connects. -/
def emptyCaster : CasterState := ⟨oneMount 8, [], [], []⟩

theorem emptyCaster_init : (casterSystem 8).init emptyCaster :=
  ⟨_, fun _ hmt => ⟨_, _, _, _, _, _, List.mem_singleton.mp hmt⟩, rfl⟩

/-- A base station takes the slot, another one is refused. An admin kicks the first, a third one
takes the slot, and the read loop of the first ends with a `ClearSource` of its own. -/
def succession : List CasterStep :=
  [.connect 0 (ascii "a") 1, .source 0 none, .source 0 none,
    .connect 0 (ascii "b") 2, .source 1 none, .source 1 none,
    .kickSource 0, .call 0 .stored .stored, .call 0 .stored .stored,
    .connect 0 (ascii "c") 3, .source 2 none, .source 2 none,
    .source 0 none, .source 0 none, .source 0 none, .call 1 .stored .stored,
    .call 0 .stored .stored, .closeConn 0, .call 0 .stored .stored, .call 0 .stored .stored,
    .call 1 .stored .stored, .call 1 .stored .stored, .source 0 none, .source 0 none]

/-- The third one is in the slot, and the first one is closed and gone. -/
theorem slot_safe_succession : ∃ s, (casterSystem 8).run emptyCaster succession = some s ∧
    s.rovers.slot 0 = some ⟨2, ascii "c", 3⟩ ∧ s.sources.map SourceSession.pc =
      [.finished, .rejected, .respond] ∧ s.SlotSafe ∧
        ∀ a s', (casterSystem 8).step s a = some s' → s.SlotStepSafe s' := by
  obtain ⟨s, hs, hslot, hpcs⟩ : ∃ s, (casterSystem 8).run emptyCaster succession = some s ∧
      s.rovers.slot 0 = some ⟨2, ascii "c", 3⟩ ∧ s.sources.map SourceSession.pc =
        [.finished, .rejected, .respond] := ⟨_, rfl, rfl, rfl⟩
  exact ⟨s, hs, hslot, hpcs, slot_safe (.of_run _ emptyCaster_init hs)⟩

end NtripCaster
