import NtripCaster.Rover.Delivery
import NtripCaster.Source.Succession

/-!
# One publisher at a time

The read loop looks at `Done` once in a round, before it reads; the packets of a chunk are then
broadcast one by one, whoever is in the slot by then. So a session that has been removed goes on
to publish what it has read, or still reads, and its successor publishes at the same time.

## Main definitions

* `ReadLoopPC.publishing`: packets of the last chunk are still to be broadcast
* `InOrder`, `NobodyHeard`: the conditions on a step
* `CasterState.SinglePublisher`, `CasterState.OneStation`: the guarantees

## Main results

* `single_publisher`: the guarantees hold in every run under the conditions
* `single_publisher_not`: a packet of a source that was kicked is delivered under its successor
-/

namespace NtripCaster

open Transition CasterState

/-- Packets of the last chunk are still to be broadcast. -/
def ReadLoopPC.publishing : ReadLoopPC → Bool
  | packets (_ :: _) | broadcast _ => true
  | _ => false

instance (op : RemovalOp) (info : SourceInfo) : Decidable (op.Hits info) :=
  match op with
  | .clearSource srcID => inferInstanceAs (Decidable (info.id = srcID))
  | .kickSourceByUser userID => inferInstanceAs (Decidable (info.userID = userID))
  | .disconnectAll => .isTrue trivial

/-- The condition on a step: a `Read` that completes packets is one of the session in the slot, and
no session is taken off between such a `Read` and the end of its last `Broadcast`. -/
def InOrder (s : CasterState) : CasterStep → Prop
  | .source k (some b) => ∀ x ∈ s.sources[k]?, x.pc = .read →
    s.rovers.slot x.mount = some x.info ∨ (x.framer.push b).2 = []
  | .call j _ _ => ∀ c ∈ s.calls[j]?, c.pc = .enter → ∀ src ∈ s.rovers.slot c.mount,
    c.op.Hits src → ∀ x ∈ s.sources[src.ref]?, x.pc.publishing = false
  | _ => True

instance (s : CasterState) (a : CasterStep) : Decidable (InOrder s a) :=
  match a with
  | .source k (some b) => inferInstanceAs (Decidable (∀ x ∈ s.sources[k]?, x.pc = .read →
      s.rovers.slot x.mount = some x.info ∨ (x.framer.push b).2 = []))
  | .call j _ _ => inferInstanceAs (Decidable (∀ c ∈ s.calls[j]?, c.pc = .enter →
      ∀ src ∈ s.rovers.slot c.mount, c.op.Hits src → ∀ x ∈ s.sources[src.ref]?,
        x.pc.publishing = false))
  | .source _ none | .rover .. | .connect .. | .deliver .. | .closeConn .. | .kickSource ..
  | .kickSourceByUser .. | .disconnectAll .. => .isTrue trivial

/-! ## `Broadcast` calls of a read loop -/

namespace RoverState

variable {r r' : RoverState} {m : ℕ} {mt mt' : Mount}

/-- A `Broadcast` call starts with the clients of the map. -/
theorem pending_startBroadcast {pkt : RTCMPacket} (h : r.startBroadcast m pkt = some r')
    (hmt : r.mounts[m]? = some mt) (hmt' : r'.mounts[m]? = some mt') :
    mt'.broadcast.pending = mt.point.snapshot := by
  rw [startBroadcast, hmt, Option.bind_some] at h
  split at h
  · obtain rfl := Option.some.inj h
    rcases getElem?_set_eq_some hmt' with ⟨-, rfl⟩ | ⟨hne, -⟩
    · rfl
    · exact absurd rfl hne
  · cases h

/-- A `Broadcast` call that moves on is in progress, and deals with no new clients. -/
theorem pending_deliver {case : SendCase} (h : r.deliver m case = some r')
    (hmt : r.mounts[m]? = some mt) (hmt' : r'.mounts[m]? = some mt') :
    mt.broadcast ≠ .idle ∧ ∀ d ∈ mt'.broadcast.pending, d ∈ mt.broadcast.pending := by
  have hself : ∀ {mt₁ : Mount}, (r.mounts.set m mt₁)[m]? = some mt' → mt' = mt₁ := by
    intro mt₁ h₁
    rcases getElem?_set_eq_some h₁ with ⟨-, rfl⟩ | ⟨hne, -⟩
    · rfl
    · exact absurd rfl hne
  rw [deliver, hmt, Option.bind_some] at h
  split at h
  next => cases h
  next hpc =>
    obtain rfl := Option.some.inj h
    obtain rfl := hself hmt'
    rw [hpc]
    exact ⟨nofun, nofun⟩
  next hpc =>
    obtain ⟨x, -, rfl⟩ := Option.map_eq_some_iff.mp h
    rw [hpc]
    refine ⟨nofun, fun d hd => ?_⟩
    split at hmt' <;> obtain rfl := hself hmt'
    · exact List.mem_cons_of_mem _ hd
    · exact hd
  next hpc =>
    obtain ⟨x, -, h⟩ := Option.bind_eq_some_iff.mp h
    rw [hpc]
    refine ⟨nofun, fun d hd => ?_⟩
    split at h
    · obtain ⟨x', -, rfl⟩ := Option.map_eq_some_iff.mp h
      obtain rfl := hself hmt'
      exact List.mem_cons_of_mem _ hd
    · obtain ⟨-, h⟩ := Option.ite_none_right_eq_some.mp h
      obtain rfl := Option.some.inj h
      obtain rfl := hself hmt'
      exact List.mem_cons_of_mem _ hd
    · obtain ⟨-, h⟩ := Option.ite_none_right_eq_some.mp h
      obtain rfl := Option.some.inj h
      obtain rfl := hself hmt'
      exact hd
  next hpc =>
    obtain rfl := Option.some.inj h
    obtain rfl := hself hmt'
    rw [hpc]
    exact ⟨nofun, fun d hd => hd⟩
  next hpc =>
    obtain rfl := Option.some.inj h
    obtain rfl := hself hmt'
    rw [hpc]
    exact ⟨nofun, fun d hd => hd⟩
  next hpc =>
    obtain ⟨x, -, rfl⟩ := Option.map_eq_some_iff.mp h
    rw [hpc]
    refine ⟨nofun, fun d hd => ?_⟩
    split at hmt' <;> obtain rfl := hself hmt'
    · exact List.mem_cons_of_mem _ hd
    · exact hd
  next hpc =>
    obtain ⟨x, -, rfl⟩ := Option.map_eq_some_iff.mp h
    rw [hpc]
    refine ⟨nofun, fun d hd => ?_⟩
    split at hmt'
    · obtain rfl := hself hmt'
      exact List.mem_cons_of_mem _ hd
    · rw [setSession, hmt] at hmt'
      obtain rfl := Option.some.inj hmt'
      rw [hpc] at hd
      exact hd

end RoverState

/-! ## Who publishes -/

namespace CasterState

variable {s s' : CasterState} {a : CasterStep}

/-- The `Broadcast` call of a session belongs to its read loop. -/
def Calls (x : SourceSession) : Prop := x.broadcast = .idle ∨ ∃ todo, x.pc = .broadcast todo

/-- How a step in order may change what a session publishes, and to whom. -/
structure Publishes (s : CasterState) (x x' : SourceSession) : Prop where
  mount : x'.mount = x.mount
  info : x'.info = x.info
  calls : Calls x → Calls x'
  publishing : x'.pc.publishing = true → x.pc.publishing = true ∨ s.Holds x
  pending : Known s.rovers.mounts s.rovers.sessions → ∀ d ∈ x'.broadcast.pending,
    d ∈ x.broadcast.pending ∨ s.rovers.IsClient x.mount d

theorem Publishes.refl (s : CasterState) (x : SourceSession) : s.Publishes x x :=
  ⟨rfl, rfl, id, .inl, fun _ _ => .inl⟩

/-- A session goes on to a point at which it publishes nothing. -/
theorem Publishes.of_pc {x x' : SourceSession} (hmount : x'.mount = x.mount)
    (hinfo : x'.info = x.info) (hbroadcast : x'.broadcast = x.broadcast)
    (hpc : ∀ todo, x.pc ≠ .broadcast todo) (hpc' : x'.pc.publishing = false) :
    s.Publishes x x' where
  mount := hmount
  info := hinfo
  calls h := .inl (hbroadcast.trans (h.resolve_right fun ⟨todo, h⟩ => hpc todo h))
  publishing h := by
    rw [hpc'] at h
    cases h
  pending _ d hd := .inl (hbroadcast ▸ hd)

theorem publishes_moves {calls : List RemovalCall} {x x' : SourceSession}
    (h : x.Moves calls x') : s.Publishes x x' := by
  cases h with
  | @check pc hpc hpc' =>
    refine .of_pc rfl rfl rfl (fun todo h => ?_) ?_
    · rw [h] at hpc
      cases hpc
    · cases pc <;> first | rfl | cases hpc'
  | loop hpc hpc' =>
    refine .of_pc rfl rfl rfl (fun todo h => ?_) ?_
    · rw [h] at hpc
      rcases hpc with hpc | hpc | hpc <;> cases hpc
    · rcases hpc' with rfl | rfl <;> rfl
  | next hpc hidle => exact ⟨rfl, rfl, fun _ => .inl hidle, fun _ => .inl (by rw [hpc]; rfl),
      fun _ _ => .inl⟩
  | close hpc hc hreturned =>
    exact .of_pc rfl rfl rfl (fun todo h => by rw [h] at hpc; cases hpc) rfl
  | finish hpc hclosed =>
    exact .of_pc rfl rfl rfl (fun todo h => by rw [h] at hpc; cases hpc) rfl
  | closing hclose => exact ⟨rfl, rfl, id, .inl, fun _ _ => .inl⟩

/-- A session that connects publishes nothing. -/
def Silent (x : SourceSession) : Prop := x.broadcast = .idle ∧ x.pc.publishing = false

/-- Step by step: a session starts to publish only while it holds the slot, and takes only clients
of its mountpoint into a `Broadcast`. -/
theorem step_publishes (he : CasterEffect s a s') (ha : InOrder s a) :
    Moved Silent s.Publishes s.sources s'.sources := by
  cases he with
  | rover hab hb h => exact .same
  | connect mount id userID hid => exact .start ⟨rfl, rfl⟩
  | moves hx h => exact .move hx (publishes_moves h)
  | @read k x b hab hx hpc =>
    refine .move hx ⟨rfl, rfl, fun h => .inl ?_, fun h => .inr ?_, fun _ _ => .inl⟩
    · exact h.resolve_right fun ⟨todo, h⟩ => by rw [hpc] at h; cases h
    · rw [hab] at ha
      rcases ha x hx hpc with hholds | hnil
      · exact hholds
      · dsimp only at h
        rw [hnil] at h
        cases h
  | took hab hx hmt hpc hfree =>
    exact .move hx (.of_pc rfl rfl rfl (fun todo h => by rw [hpc] at h; cases h) rfl)
  | leave hx hpc =>
    refine .move hx (.of_pc rfl rfl rfl (fun todo h => ?_) rfl)
    rcases hpc with hpc | hpc <;> (rw [hpc] at h; cases h)
  | @broadcast k x pkt todo r pc hx hpc h =>
    refine .move hx ⟨rfl, rfl, fun _ => .inr ⟨todo, rfl⟩, fun _ => .inl (by rw [hpc]; rfl), ?_⟩
    intro hknown d hd
    obtain ⟨mt, r', mt', hmt, hstep, hmt', rfl, rfl⟩ := moveBroadcast_eq_some h
    have hmt₀ := List.getElem?_set_self (a := { mt with broadcast := x.broadcast })
      (List.getElem?_eq_some_iff.mp hmt).1
    dsimp only at hd
    rw [RoverState.pending_startBroadcast hstep hmt₀ hmt'] at hd
    exact .inr ((RoverState.isClient_iff hknown).mpr ⟨mt, hmt, hd⟩)
  | @deliver k x case r pc hx h =>
    obtain ⟨mt, r', mt', hmt, hstep, hmt', rfl, rfl⟩ := moveBroadcast_eq_some h
    have hmt₀ := List.getElem?_set_self (a := { mt with broadcast := x.broadcast })
      (List.getElem?_eq_some_iff.mp hmt).1
    obtain ⟨hne, hsub⟩ := RoverState.pending_deliver hstep hmt₀ hmt'
    refine .move hx ⟨rfl, rfl, fun h => ?_, .inl, fun _ d hd => .inl (hsub d hd)⟩
    exact .inr (h.resolve_left hne)
  | request hremoved hpc => exact .same
  | sourceID srcID hc hpc => exact .same
  | enter ord ord' hab hc hmt hpc => exact .same
  | kick hc hpc hclosed => exact .same
  | returned hc hpc h => exact .same

/-- Who publishes is in the slot, and its `Broadcast` calls deal with rovers of its mountpoint. -/
structure PublishInv (s : CasterState) : Prop where
  calls : ∀ x ∈ s.sources, Calls x
  holds : ∀ x ∈ s.sources, x.pc.publishing = true → s.Holds x
  pending : ∀ x ∈ s.sources, ∀ d ∈ x.broadcast.pending, s.rovers.Joined x.mount d.ref

/-- A session in the slot that publishes stays there. -/
theorem holds_step (hinv : s.SlotInv) (hs : SlotStep s a s') (ha : InOrder s a) {k : ℕ}
    {x x' : SourceSession} (hx : s.sources[k]? = some x) (hx' : s'.sources[k]? = some x')
    (hpc : x'.pc.publishing = true) (hholds : s.Holds x) :
    s'.rovers.slot x.mount = some x.info := by
  cases hs with
  | quiet hslot hsources hcalls hlog => exact (hslot x.mount).trans hholds
  | took hab hx₀ hpc₀ hfree hslot hsources hcalls hlog =>
    rw [hslot]
    split
    next hm =>
      rw [Holds, hm, hfree] at hholds
      cases hholds
    next => exact hholds
  | leave hx₀ hpc₀ => exact hholds
  | @hit _ j c src kick hab hc hpc₀ hsrc hop hslot hsources hcalls hlog =>
    rw [hslot]
    split
    next hm =>
      rw [Holds, hm, hsrc] at hholds
      obtain rfl := Option.some.inj hholds
      obtain ⟨ord, ord', rfl⟩ := hab
      rw [hsources] at hx'
      obtain rfl := Option.some.inj (hx.symm.trans hx')
      have hquiet := ha c hc hpc₀ x.info hsrc hop x (by rw [hinv.ref k x hx]; exact hx)
      rw [hpc] at hquiet
      cases hquiet
    next => exact hholds
  | miss kick hc hpc₀ hop hslot hsources hcalls hlog => exact (hslot x.mount).trans hholds

/-- In order, the slot is not taken from a session while it publishes. -/
theorem PublishInv.step (h : s.PublishInv) (hinv : s.SlotInv)
    (hknown : Known s.rovers.mounts s.rovers.sessions) (he : CasterEffect s a s')
    (ha : InOrder s a) : s'.PublishInv := by
  have hmoved := step_publishes he ha
  have hback : ∀ x' ∈ s'.sources, ∃ k : ℕ, s'.sources[k]? = some x' ∧
      (Silent x' ∨ ∃ x, s.sources[k]? = some x ∧ s.Publishes x x') := by
    intro x' hx'
    obtain ⟨k, hk⟩ := List.getElem?_of_mem hx'
    rcases hmoved.of_getElem? (Publishes.refl s) hk with ⟨x, hx, hpub⟩ | ⟨-, hsilent⟩
    · exact ⟨k, hk, .inr ⟨x, hx, hpub⟩⟩
    · exact ⟨k, hk, .inl hsilent⟩
  constructor
  · intro x' hx'
    obtain ⟨k, -, hsilent | ⟨x, hx, hpub⟩⟩ := hback x' hx'
    · exact .inl hsilent.1
    · exact hpub.calls (h.calls x (List.mem_of_getElem? hx))
  · intro x' hx' hpc
    obtain ⟨k, hk, hsilent | ⟨x, hx, hpub⟩⟩ := hback x' hx'
    · rw [hsilent.2] at hpc
      cases hpc
    · have hholds : s.Holds x := by
        rcases hpub.publishing hpc with hpc' | hholds
        · exact h.holds x (List.mem_of_getElem? hx) hpc'
        · exact hholds
      rw [Holds, hpub.mount, hpub.info]
      exact holds_step hinv (slotStep he) ha hx hk hpc hholds
  · intro x' hx' d hd
    obtain ⟨k, -, hsilent | ⟨x, hx, hpub⟩⟩ := hback x' hx'
    · rw [hsilent.1] at hd
      cases hd
    · rw [hpub.mount]
      refine (rovers_goes he).joined _ _ ?_
      rcases hpub.pending hknown d hd with hd | hd
      · exact h.pending x (List.mem_of_getElem? hx) d hd
      · exact RoverState.joined_of_registered (hd.registered hknown)

/-! ## What has been put into the queues -/

/-- Packets of source `k` have been put into the `WriteChan` of rover `i`. -/
def PutTo (s : CasterState) (k i : ℕ) : Prop := ∃ pkt holder, .put k i pkt holder ∈ s.log

/-- A packet of source `k` has been put into the `WriteChan` of rover `i` before one of
source `b`. -/
def PutBefore (s : CasterState) (k b i : ℕ) : Prop :=
  ∃ pkt holder pkt' holder',
    [SlotEvent.put k i pkt holder, .put b i pkt' holder'].Sublist s.log

/-- Session `x` puts its packet into the `WriteChan` of rover `i`. -/
structure PuttingTo (s : CasterState) (k i : ℕ) (pkt : RTCMPacket) (holder : Option SourceInfo)
    (x : SourceSession) : Prop where
  source : s.sources[k]? = some x
  pending : ∃ c todo, x.broadcast = .select pkt c todo ∧ c.ref = i
  holder : holder = s.rovers.slot x.mount

/-- A packet is put by the `Broadcast` call of the read loop that has framed it, at most one in a
step. -/
theorem put_cases (he : CasterEffect s a s') {l : List SlotEvent} (hlog : s'.log = s.log ++ l)
    {k i : ℕ} {pkt : RTCMPacket} {holder : Option SourceInfo} (h : .put k i pkt holder ∈ l) :
    l = [.put k i pkt holder] ∧ ∃ x, s.PuttingTo k i pkt holder x := by
  have hnil : ∀ {l₀ : List SlotEvent}, s'.log = s.log ++ l₀ → .put k i pkt holder ∈ l₀ := by
    intro l₀ hl₀
    rw [List.append_cancel_left (hl₀.symm.trans hlog)]
    exact h
  have hquiet : s'.log ≠ s.log := fun heq =>
    absurd (hnil (heq.trans (List.append_nil _).symm)) nofun
  cases he with
  | rover hab hb hr =>
    obtain ⟨x, -, hx⟩ := List.mem_map.mp (hnil rfl)
    cases hx
  | connect mount id userID hid => exact absurd rfl hquiet
  | moves hx hm => exact absurd rfl hquiet
  | read hab hx hpc => exact absurd rfl hquiet
  | took hab hx hmt hpc hfree => cases List.mem_singleton.mp (hnil rfl)
  | leave hx hpc => exact absurd rfl hquiet
  | broadcast hx hpc hb => exact absurd rfl hquiet
  | @deliver k₀ x case r pc hx hb =>
    have hput := hnil rfl
    rw [← List.append_cancel_left (show s.log ++ _ = s.log ++ l from hlog)]
    unfold SourceSession.puts at hput ⊢
    split at hput
    next pkt₀ c todo hpc =>
      obtain ⟨rfl, rfl, rfl, rfl⟩ := SlotEvent.put.inj (List.mem_singleton.mp hput)
      exact ⟨rfl, x, hx, ⟨c, todo, hpc, rfl⟩, rfl⟩
    next => cases hput
  | request hremoved hpc => exact absurd rfl hquiet
  | sourceID srcID hc hpc => exact absurd rfl hquiet
  | enter ord ord' hab hc hmt hpc => exact absurd rfl hquiet
  | kick hc hpc hclosed => exact absurd rfl hquiet
  | returned hc hpc hi => exact absurd rfl hquiet

/-- Every step adds to the log. -/
theorem exists_log (he : CasterEffect s a s') : ∃ l, s'.log = s.log ++ l := by
  rcases (slotStep he).log_cases with ⟨k, -, -, -, hlog⟩ | ⟨l, hlog, -⟩
  · exact ⟨_, hlog⟩
  · exact ⟨l, hlog⟩

/-- Whoever puts a packet is in the slot, and puts it to a rover of its mountpoint. -/
theorem PublishInv.puttingTo (h : s.PublishInv) {k i : ℕ} {pkt : RTCMPacket}
    {holder : Option SourceInfo} {x : SourceSession} (hput : s.PuttingTo k i pkt holder x) :
    s.Holds x ∧ s.rovers.Joined x.mount i := by
  have hmem := List.mem_of_getElem? hput.source
  obtain ⟨c, todo, hpc, rfl⟩ := hput.pending
  constructor
  · rcases h.calls x hmem with hidle | ⟨todo', hloop⟩
    · rw [hidle] at hpc
      cases hpc
    · exact h.holds x hmem (by rw [hloop]; rfl)
  · refine h.pending x hmem c ?_
    rw [hpc]
    exact List.mem_cons_self

/-- What the log says about packets: they have been put under their own source, and those of a
source before those of its successor. -/
structure PutInv (s : CasterState) : Prop where
  put : ∀ k i pkt holder, .put k i pkt holder ∈ s.log → .took k ∈ s.log ∧
    ∃ x, s.sources[k]? = some x ∧ s.rovers.Joined x.mount i ∧ holder = some x.info
  order : ∀ k b i, k ≠ b → s.PutBefore k b i → s.TookAfter k b

theorem joined_unique {r : RoverState} {m m' i : ℕ} (h : r.Joined m i) (h' : r.Joined m' i) :
    m = m' := by
  obtain ⟨x, hx, rfl, -⟩ := h
  obtain ⟨y, hy, rfl, -⟩ := h'
  rw [Option.some.inj (hx.symm.trans hy)]

/-- Who puts a packet to a rover has taken the slot after those that have put packets to it
before. -/
theorem PutInv.tookAfter (h : s.PutInv) (hinv : s.SlotInv) (hlogInv : s.LogInv)
    (hpub : s.PublishInv) {k b i : ℕ} {pkt : RTCMPacket} {holder : Option SourceInfo}
    {x : SourceSession} (hput : s.PuttingTo b i pkt holder x) (hk : s.PutTo k i) (hne : k ≠ b) :
    s.TookAfter k b := by
  obtain ⟨hholds, hjoined⟩ := hpub.puttingTo hput
  obtain ⟨pkt₀, holder₀, hk⟩ := hk
  obtain ⟨htook, y, hy, hjoined', -⟩ := h.put k i pkt₀ holder₀ hk
  have hbtook := hlogInv.holder x.mount x.info hholds
  have hlast := hlogInv.last x.mount x.info hholds k y hy (joined_unique hjoined' hjoined)
  rw [hinv.ref b x hput.source] at hbtook hlast
  rcases pair_sublist_total htook hbtook (fun heq => hne (SlotEvent.took.inj heq)) with h | h
  · exact h
  · exact absurd h hlast

/-- A packet is put by whoever holds the slot, so that the puts follow the order of the holders. -/
theorem PutInv.step (h : s.PutInv) (hinv : s.SlotInv) (hlogInv : s.LogInv) (hpub : s.PublishInv)
    (he : CasterEffect s a s') : s'.PutInv := by
  obtain ⟨l, hlog⟩ := exists_log he
  constructor
  · intro k i pkt holder hput
    rw [hlog] at hput ⊢
    -- what is known of session `k` before the step
    have hfrom : ∀ x, s.sources[k]? = some x → s.rovers.Joined x.mount i → holder = some x.info →
        ∃ x', s'.sources[k]? = some x' ∧ s'.rovers.Joined x'.mount i ∧
          holder = some x'.info := by
      intro x hx hjoined hholder
      obtain ⟨x', hx', hage⟩ := (slotStep he).ages.exists_getElem? SourceSession.Ages.refl hx
      refine ⟨x', hx', ?_, by rw [hage.info]; exact hholder⟩
      rw [hage.mount]
      exact (rovers_goes he).joined _ _ hjoined
    rcases List.mem_append.mp hput with hput | hput
    · obtain ⟨htook, x, hx, hjoined, hholder⟩ := h.put k i pkt holder hput
      exact ⟨List.mem_append_left _ htook, hfrom x hx hjoined hholder⟩
    · obtain ⟨-, x, hputting⟩ := put_cases he hlog hput
      obtain ⟨hholds, hjoined⟩ := hpub.puttingTo hputting
      refine ⟨List.mem_append_left _ ?_, hfrom x hputting.source hjoined ?_⟩
      · have htook := hlogInv.holder x.mount x.info hholds
        rwa [hinv.ref k x hputting.source] at htook
      · exact hputting.holder.trans hholds
  · intro k b i hne
    rintro ⟨pkt, holder, pkt', holder', hbefore⟩
    have hmono : s.TookAfter k b → s'.TookAfter k b := fun hafter => by
      rw [TookAfter, hlog]
      exact hafter.trans (List.sublist_append_left _ _)
    rw [hlog, pair_sublist_append] at hbefore
    rcases hbefore with hbefore | ⟨hk, hb⟩ | hbefore
    · exact hmono (h.order k b i hne ⟨pkt, holder, pkt', holder', hbefore⟩)
    · obtain ⟨-, x, hputting⟩ := put_cases he hlog hb
      exact hmono (h.tookAfter hinv hlogInv hpub hputting ⟨pkt, holder, hk⟩ hne)
    · obtain ⟨hone, -⟩ := put_cases he hlog (hbefore.subset List.mem_cons_self)
      rw [hone] at hbefore
      exact absurd hbefore.length_le (Nat.not_succ_le_self 1)

/-- Two sources have not taken their slots each after the other. -/
theorem tookAfter_asymm {maxClients : ℤ} (h : (casterSystem maxClients).Reachable s) :
    ∀ k b, s.TookAfter k b → ¬ s.TookAfter b k := by
  refine h.invariant (I := fun s => ∀ k b, s.TookAfter k b → ¬ s.TookAfter b k) ?_
    fun s a s' hreach hs hstep => ?_
  · rintro s ⟨mounts, -, rfl⟩ k b hafter
    cases hafter
  · have hlogInv := casterSystem_logInv hreach
    intro k b hkb hbk
    rcases (slotStep (step_effect hstep)).log_cases with ⟨k₀, x, hx, hpc, hlog⟩ | ⟨l, hlog, hl⟩
    · have hnot := hlogInv.not_took hx (by rw [hpc]; rfl)
      rcases tookAfter_of_took hlog hkb with hkb | ⟨hk, rfl⟩
      · rcases tookAfter_of_took hlog hbk with hbk | ⟨-, rfl⟩
        · exact hs k b hkb hbk
        · exact hnot hkb.mem.1
      · rcases tookAfter_of_took hlog hbk with hbk | ⟨hb, -⟩
        · exact hnot hbk.mem.1
        · exact hnot hb
    · exact hs k b (tookAfter_of_notes hlog hl hkb) (tookAfter_of_notes hlog hl hbk)

end CasterState

/-! ## Rovers that have heard a predecessor -/

/-- The packet is put into the `WriteChan` of rover `i`. -/
def SlotEvent.putTo (i : ℕ) : SlotEvent → Bool
  | put _ j _ _ => j == i
  | _ => false

/-- The condition on a step: when a source takes the slot, none of the rovers in the map has been
sent anything. -/
def NobodyHeard (s : CasterState) : CasterStep → Prop
  | .source k _ => ∀ x ∈ s.sources[k]?, x.pc = .setSource → s.rovers.slot x.mount = none →
    ∀ mt ∈ s.rovers.mounts[x.mount]?, ∀ d ∈ mt.point.snapshot, ∀ e ∈ s.log, e.putTo d.ref = false
  | _ => True

instance (s : CasterState) (a : CasterStep) : Decidable (NobodyHeard s a) :=
  match a with
  | .source k _ => inferInstanceAs (Decidable (∀ x ∈ s.sources[k]?, x.pc = .setSource →
      s.rovers.slot x.mount = none → ∀ mt ∈ s.rovers.mounts[x.mount]?, ∀ d ∈ mt.point.snapshot,
        ∀ e ∈ s.log, e.putTo d.ref = false))
  | .rover .. | .connect .. | .deliver .. | .closeConn .. | .kickSource ..
  | .kickSourceByUser .. | .disconnectAll .. | .call .. => .isTrue trivial

namespace CasterState

variable {s s' : CasterState} {a : CasterStep}

/-- A `Broadcast` on mountpoint `m` may reach the client, now or from now on. -/
def Reaches (s : CasterState) (m : ℕ) (d : Client) : Prop :=
  s.rovers.IsClient m d ∨ ∃ x ∈ s.sources, x.mount = m ∧ d ∈ x.broadcast.pending

/-- Nobody has taken the slot after a source that a rover within reach has heard, and no rover has
heard two sources. -/
structure HeardInv (s : CasterState) : Prop where
  heard : ∀ m d k, s.Reaches m d → s.PutTo k d.ref → ∀ (b : ℕ) (y : SourceSession),
    s.sources[b]? = some y → y.mount = m → ¬ s.TookAfter k b
  one : ∀ k b i, s.PutTo k i → s.PutTo b i → k = b

theorem Reaches.joined (h : s.PublishInv) (hknown : Known s.rovers.mounts s.rovers.sessions)
    {m : ℕ} {d : Client} (hd : s.Reaches m d) : s.rovers.Joined m d.ref := by
  rcases hd with hd | ⟨x, hx, rfl, hd⟩
  · exact RoverState.joined_of_registered (hd.registered hknown)
  · exact h.pending x hx d hd

/-- Who is within reach after a step was so before, or is registered in the step. -/
theorem Reaches.of_step (hknown : Known s.rovers.mounts s.rovers.sessions)
    (he : CasterEffect s a s') (ha : InOrder s a) {m : ℕ} {d : Client} (hd : s'.Reaches m d) :
    s.Reaches m d ∨ ∀ n, ¬ s.rovers.Joined n d.ref := by
  rcases hd with hd | ⟨x', hx', rfl, hd⟩
  · exact ((rovers_goes he).isClient hknown m d hd).imp_left .inl
  · obtain ⟨k, hk⟩ := List.getElem?_of_mem hx'
    rcases (step_publishes he ha).of_getElem? (Publishes.refl s) hk with
      ⟨x, hx, hpub⟩ | ⟨-, hsilent⟩
    · rcases hpub.pending hknown d hd with hd | hd
      · exact .inl (.inr ⟨x, List.mem_of_getElem? hx, hpub.mount.symm, hd⟩)
      · exact .inl (.inl (hpub.mount ▸ hd))
    · rw [hsilent.1] at hd
      cases hd

/-- Nobody who has heard a source is within reach when another one takes the slot. -/
theorem not_putTo_of_took (hknown : Known s.rovers.mounts s.rovers.sessions) (hpub : s.PublishInv)
    (hheard : NobodyHeard s a) {k₀ : ℕ} {x₀ : SourceSession} (hab : ∃ read, a = .source k₀ read)
    (hx₀ : s.sources[k₀]? = some x₀) (hpc₀ : x₀.pc = .setSource)
    (hfree : s.rovers.slot x₀.mount = none) {d : Client} (hd : s.Reaches x₀.mount d) (k : ℕ) :
    ¬ s.PutTo k d.ref := by
  rintro ⟨pkt, holder, hput⟩
  obtain ⟨read, rfl⟩ := hab
  rcases hd with hd | ⟨x, hx, hm, hd⟩
  · obtain ⟨mt, hmt, hsnap⟩ := (RoverState.isClient_iff hknown).mp hd
    have hnot := hheard x₀ hx₀ hpc₀ hfree mt hmt d hsnap _ hput
    exact absurd hnot (by simp [SlotEvent.putTo])
  · -- whoever is broadcasting is in the slot, which is free
    have hholds : s.Holds x := by
      rcases hpub.calls x hx with hidle | ⟨todo, hpc⟩
      · rw [hidle] at hd
        cases hd
      · exact hpub.holds x hx (by rw [hpc]; rfl)
    rw [Holds, hm, hfree] at hholds
    cases hholds

/-- A source that takes a slot finds nobody within reach who has heard its predecessor, and rovers
that come within reach later have heard nobody. -/
theorem HeardInv.step (h : s.HeardInv) (hinv : s.SlotInv) (hlogInv : s.LogInv)
    (hknown : Known s.rovers.mounts s.rovers.sessions) (hpub : s.PublishInv) (hputInv : s.PutInv)
    (he : CasterEffect s a s') (ha : InOrder s a) (hheard : NobodyHeard s a) : s'.HeardInv := by
  obtain ⟨l, hlog⟩ := exists_log he
  have hs := slotStep he
  have hjoined : ∀ {k i : ℕ}, s.PutTo k i → ∃ m, s.rovers.Joined m i := by
    rintro k i ⟨pkt, holder, hput⟩
    obtain ⟨-, x, -, hj, -⟩ := hputInv.put k i pkt holder hput
    exact ⟨_, hj⟩
  -- what has been put before the step, or is put in it
  have hcases : ∀ {k i : ℕ}, s'.PutTo k i → s.PutTo k i ∨
      ∃ pkt holder x, l = [.put k i pkt holder] ∧ s.PuttingTo k i pkt holder x := by
    rintro k i ⟨pkt, holder, hput⟩
    rw [hlog] at hput
    rcases List.mem_append.mp hput with hput | hput
    · exact .inl ⟨pkt, holder, hput⟩
    · obtain ⟨hone, x, hputting⟩ := put_cases he hlog hput
      exact .inr ⟨pkt, holder, x, hone, hputting⟩
  constructor
  · intro m d k hreach hput b y' hy' hm hafter
    -- the session that took its slot later was there before the step, unless it takes it now
    have hold : s.TookAfter k b → s.Reaches m d → s.PutTo k d.ref → False := by
      intro hafter hreach hput
      obtain ⟨y, hy, -⟩ := hlogInv.took b hafter.mem.2
      obtain ⟨y'', hy'', hage⟩ := hs.ages.exists_getElem? SourceSession.Ages.refl hy
      obtain rfl := Option.some.inj (hy''.symm.trans hy')
      exact h.heard m d k hreach hput b y hy (hage.mount.symm.trans hm) hafter
    rcases hcases hput with hput | ⟨pkt, holder, x, hone, hputting⟩
    · have hwithin : s.Reaches m d := by
        refine (hreach.of_step hknown he ha).resolve_right fun hnew => ?_
        obtain ⟨n, hn⟩ := hjoined hput
        exact hnew n hn
      cases hs with
      | quiet hslot hsources hcalls hlog' =>
        obtain ⟨l', hlog', hl'⟩ := hlog'
        exact hold (tookAfter_of_notes hlog' hl' hafter) hwithin hput
      | @took _ k₀ x₀ hab hx₀ hpc₀ hfree hslot hsources hcalls hlog' =>
        rcases tookAfter_of_took hlog' hafter with hafter | ⟨-, rfl⟩
        · exact hold hafter hwithin hput
        · rw [hsources, getElem?_set_of_eq_some hx₀] at hy'
          obtain rfl := Option.some.inj hy'
          subst hm
          exact not_putTo_of_took hknown hpub hheard hab hx₀ hpc₀ hfree hwithin k hput
      | leave hx hpc => exact hold hafter hwithin hput
      | hit kick hab hc hpc hsrc hop hslot hsources hcalls hlog' =>
        rw [TookAfter, hlog'] at hafter
        exact hold hafter hwithin hput
      | miss kick hc hpc hop hslot hsources hcalls hlog' =>
        rw [TookAfter, hlog'] at hafter
        exact hold hafter hwithin hput
    · -- the source is in the slot, so nobody has taken it later
      obtain ⟨hholds, hj⟩ := hpub.puttingTo hputting
      have hafter : s.TookAfter k b := by
        rw [TookAfter, hlog, hone, pair_sublist_append] at hafter
        rcases hafter with hafter | ⟨-, hb⟩ | hafter
        · exact hafter
        · cases List.mem_singleton.mp hb
        · exact absurd hafter.length_le (Nat.not_succ_le_self 1)
      obtain ⟨y, hy, -⟩ := hlogInv.took b hafter.mem.2
      obtain ⟨y'', hy'', hage⟩ := hs.ages.exists_getElem? SourceSession.Ages.refl hy
      obtain rfl := Option.some.inj (hy''.symm.trans hy')
      have hmx : m = x.mount := by
        rcases hreach.of_step hknown he ha with hreach | hnew
        · exact joined_unique (hreach.joined hpub hknown) hj
        · exact absurd hj (hnew _)
      refine hlogInv.last x.mount x.info hholds b y hy ?_ ?_
      · rw [← hage.mount, hm, hmx]
      · rw [hinv.ref k x hputting.source]
        exact hafter
  · -- a source that puts a packet has no successor and no predecessor at this rover
    have hnew : ∀ {k b i : ℕ} {pkt : RTCMPacket} {holder : Option SourceInfo} {x : SourceSession},
        s.PuttingTo k i pkt holder x → s.PutTo b i → b = k := by
      intro k b i pkt holder x hputting hput
      by_contra hne
      have hafter := hputInv.tookAfter hinv hlogInv hpub hputting hput hne
      obtain ⟨c, todo, hpc, rfl⟩ := hputting.pending
      have hmem := List.mem_of_getElem? hputting.source
      have hreach : s.Reaches x.mount c := by
        refine .inr ⟨x, hmem, rfl, ?_⟩
        rw [hpc]
        exact List.mem_cons_self
      exact h.heard x.mount c b hreach hput k x hputting.source rfl hafter
    intro k b i hk hb
    rcases hcases hk with hk | ⟨pkt, holder, x, hone, hputting⟩
    · rcases hcases hb with hb | ⟨pkt, holder, x, -, hputting⟩
      · exact h.one k b i hk hb
      · exact hnew hputting hk
    · rcases hcases hb with hb | ⟨pkt', holder', x', hone', -⟩
      · exact (hnew hputting hb).symm
      · exact (SlotEvent.put.inj (List.singleton_inj.mp (hone.symm.trans hone'))).1

end CasterState

/-! ## The guarantees -/

/-- A packet is put into a queue while its source is in the slot of the rover's mountpoint; nothing
is put of a source that a call has removed; and what a rover gets of one source comes before
everything that it gets of another. -/
structure CasterState.SinglePublisher (s : CasterState) : Prop where
  holder : ∀ k i pkt holder, .put k i pkt holder ∈ s.log →
    ∃ x, s.sources[k]? = some x ∧ s.rovers.Joined x.mount i ∧ holder = some x.info
  afterKick : ∀ a s' l, s.step a = some s' → s'.log = s.log ++ l → ∀ k i pkt holder,
    .put k i pkt holder ∈ l → ∀ c ∈ s.calls, c.removed ≠ some k
  apart : ∀ k b i, k ≠ b → s.PutBefore k b i → ¬ s.PutBefore b k i

/-- No rover gets packets of two sources. -/
def CasterState.OneStation (s : CasterState) : Prop :=
  ∀ k b i, s.PutTo k i → s.PutTo b i → k = b

/-- The invariants of the runs in order. -/
theorem publishInv_of_inOrder {maxClients : ℤ} {s : CasterState}
    (h : ((casterSystem maxClients).restrict InOrder).Reachable s) : s.PublishInv := by
  refine System.Reachable.restrict_invariant ?_ (fun s a s' hreach hs hguard hstep => ?_) h
  · rintro s ⟨mounts, -, rfl⟩
    refine ⟨fun x hx => ?_, fun x hx => ?_, fun x hx => ?_⟩ <;> cases hx
  · exact hs.step (casterSystem_slotInv hreach) (casterSystem_known hreach) (step_effect hstep)
      hguard

theorem putInv_of_inOrder {maxClients : ℤ} {s : CasterState}
    (h : ((casterSystem maxClients).restrict InOrder).Reachable s) : s.PutInv := by
  refine h.invariant (S := (casterSystem maxClients).restrict InOrder) ?_
    fun s a s' hreach hs hstep => ?_
  · rintro s ⟨mounts, -, rfl⟩
    refine ⟨fun k i pkt holder hput => ?_, ?_⟩
    · cases hput
    · rintro k b i - ⟨pkt, holder, pkt', holder', hbefore⟩
      cases hbefore
  · obtain ⟨-, hstep⟩ := System.restrict_step_iff.mp hstep
    exact hs.step (casterSystem_slotInv hreach.of_restrict) (casterSystem_logInv hreach.of_restrict)
      (publishInv_of_inOrder hreach) (step_effect hstep)

/-- The condition for rovers that hear one source only. -/
def InOrderUnheard (s : CasterState) (a : CasterStep) : Prop := InOrder s a ∧ NobodyHeard s a

instance (s : CasterState) (a : CasterStep) : Decidable (InOrderUnheard s a) :=
  inferInstanceAs (Decidable (InOrder s a ∧ NobodyHeard s a))

theorem heardInv_of_inOrderUnheard {maxClients : ℤ} {s : CasterState}
    (h : ((casterSystem maxClients).restrict InOrderUnheard).Reachable s) : s.HeardInv := by
  refine h.invariant (S := (casterSystem maxClients).restrict InOrderUnheard) ?_
    fun s a s' hreach hs hstep => ?_
  · rintro s ⟨mounts, -, rfl⟩
    refine ⟨?_, ?_⟩
    · rintro m d k - ⟨pkt, holder, hput⟩
      cases hput
    · rintro k b i ⟨pkt, holder, hput⟩
      cases hput
  · obtain ⟨⟨hguard, hheard⟩, hstep⟩ := System.restrict_step_iff.mp hstep
    have hreach' := hreach.restrict_mono (H := InOrder) fun _ _ hG => hG.1
    exact hs.step (casterSystem_slotInv hreach.of_restrict) (casterSystem_logInv hreach.of_restrict)
      (casterSystem_known hreach.of_restrict) (publishInv_of_inOrder hreach')
      (putInv_of_inOrder hreach') (step_effect hstep) hguard hheard

/-- **A single publisher**: in a run in which every `Read` that completes packets is one of the
session in the slot, and no session is taken off before it has broadcast them, packets are
delivered under their own source only, and none of a source that has been removed. If besides no
source takes the slot while a rover is registered that has heard another one, every rover hears one
source. -/
theorem single_publisher {maxClients : ℤ} {s : CasterState}
    (h : ((casterSystem maxClients).restrict InOrder).Reachable s) :
    s.SinglePublisher ∧
      (((casterSystem maxClients).restrict InOrderUnheard).Reachable s → s.OneStation) := by
  have hpub := publishInv_of_inOrder h
  have hput := putInv_of_inOrder h
  have hinv := casterSystem_slotInv h.of_restrict
  refine ⟨⟨fun k i pkt holder hmem => (hput.put k i pkt holder hmem).2, ?_, ?_⟩,
    fun h' => (heardInv_of_inOrderUnheard h').one⟩
  · intro a s' l hstep hlog k i pkt holder hmem c hc hremoved
    obtain ⟨-, x, hputting⟩ := put_cases (step_effect hstep) hlog hmem
    obtain ⟨j, hj⟩ := List.getElem?_of_mem hc
    obtain ⟨y, hy, hrem⟩ := hinv.removed j c k hj hremoved
    obtain rfl := Option.some.inj (hy.symm.trans hputting.source)
    exact hrem.gone (hpub.puttingTo hputting).1
  · intro k b i hne hkb hbk
    exact tookAfter_asymm h.of_restrict k b (hput.order k b i hne hkb)
      (hput.order b k i hne.symm hbk)

/-- A base station has taken the slot, and its read loop is in `Read`. -/
def oneSource : List CasterStep :=
  [.connect 0 (ascii "a") 1] ++ List.replicate 4 (.source 0 none)

/-- A rover is registered and answered. -/
def oneRover : List CasterStep :=
  [.rover (.connect 0 (ascii "r") 5)] ++ List.replicate 6 (.rover (.handler 0 .stored .ok))

/-- A frame is read. -/
def oneFrame : CasterStep := .source 0 (some [0xD3, 0, 0, 1, 2, 3])

/-- The packet of the chunk goes into the queue of the rover. -/
def onePut : List CasterStep := [.source 0 none, .deliver 0 .default, .deliver 0 .writeChan]

/-- The rover hears its source. -/
theorem single_publisher_one : ∃ s, ((casterSystem 8).restrict InOrderUnheard).run emptyCaster
    (oneSource ++ oneRover ++ [oneFrame] ++ onePut) = some s ∧
      s.log.length = 3 ∧ s.SinglePublisher ∧ s.OneStation := by
  obtain ⟨s, hs, hlog⟩ : ∃ s, ((casterSystem 8).restrict InOrderUnheard).run emptyCaster
      (oneSource ++ oneRover ++ [oneFrame] ++ onePut) = some s ∧ s.log.length = 3 :=
    ⟨_, rfl, rfl⟩
  have hreach : ((casterSystem 8).restrict InOrderUnheard).Reachable s :=
    .of_run _ emptyCaster_init hs
  obtain ⟨hsingle, hone⟩ := single_publisher (hreach.restrict_mono fun _ _ hG => hG.1)
  exact ⟨s, hs, hlog, hsingle, hone hreach⟩

/-- The source is kicked after its `Read`, and the kick has returned; another one takes the slot and
a rover is registered. -/
def kickedPublisher : List CasterStep :=
  oneSource ++ [oneFrame] ++
    [.kickSourceByUser 0 1, .call 0 .stored .stored, .call 0 .stored .stored, .closeConn 0,
      .call 0 .stored .stored, .call 0 .stored .stored] ++
    [.connect 0 (ascii "b") 2, .source 1 none, .source 1 none] ++ oneRover

/-- The packet is put while another source is in the slot. -/
def SlotEvent.isStray : SlotEvent → Bool
  | put k _ _ holder => holder.map SourceInfo.ref != some k
  | _ => false

/-- The rover gets the packet of the source that was kicked. -/
theorem single_publisher_not : ¬ ∀ (maxClients : ℤ) (s : CasterState),
    (casterSystem maxClients).Reachable s → s.SinglePublisher := by
  intro hall
  obtain ⟨s, hs, hstray⟩ := (Option.any_eq_true _ _).mp (show
    ((casterSystem 8).run emptyCaster (kickedPublisher ++ onePut)).any
      (fun s => s.log.any SlotEvent.isStray) = true by decide +kernel)
  have hreach : (casterSystem 8).Reachable s := .of_run _ emptyCaster_init hs
  obtain ⟨e, he, hstray⟩ := List.any_eq_true.mp hstray
  cases e with
  | took k => cases hstray
  | joined i => cases hstray
  | put k i pkt holder =>
    obtain ⟨x, hx, -, rfl⟩ := (hall 8 s hreach).holder k i pkt holder he
    simp [SlotEvent.isStray, (casterSystem_slotInv hreach).ref k x hx] at hstray

end NtripCaster
