import NtripCaster.Source.System

/-!
# The source slot of a mountpoint

A mountpoint has room for one source. It is taken by `SetSource` and given up in the critical
section of a removing call: the `ClearSource` that a read loop defers, that of an admin,
`KickSourceByUser`, or `DisconnectAll`.

## Main definitions

* `RemovalOp.Hits`: the sources that a call takes off
* `CasterState.SlotStep`: what a step does to sessions, calls and slots
* `CasterState.Holds`, `CasterState.Lives`, `CasterState.Removed`: who is in the slot, whose read
  loop has still to clear it, and who has been removed
* `CasterState.SlotInv`: how slots, sessions and calls belong together

## Main results

* `MountPoint.removal_cases`: a call takes the source off that it hits, and does nothing otherwise
* `CasterState.slotStep`: every step is one of these
* `casterSystem_slotInv`: the invariant holds in every reachable state
-/

namespace NtripCaster

open Transition

/-! ## Removing calls on a mountpoint -/

/-- The sources that a call takes off: `ClearSource` compares the ID, `KickSourceByUser` the
user. -/
def RemovalOp.Hits : RemovalOp → SourceInfo → Prop
  | clearSource srcID, info => info.id = srcID
  | kickSourceByUser userID, info => info.userID = userID
  | disconnectAll, _ => True

namespace MountPoint

variable {m : MountPoint} {ord ord' : RangeOrder Client}

theorem clearSource_of_ne {srcID : Bytes} (h : ∀ src ∈ m.source, src.id ≠ srcID) :
    m.clearSource ord srcID = (m, {}) := by
  unfold clearSource
  split
  next => rfl
  next src hsrc => exact if_pos (h src hsrc)

theorem clearSource_of_eq {src : SourceInfo} (h : m.source = some src) :
    m.clearSource ord src.id =
      ({ m with source := none, stats := { m.stats with sourceOnline := 0 } },
        { stop := some src, kick := ord.visit m.clientsByID.values }) := by
  unfold clearSource
  rw [h]
  exact if_neg fun hne => hne rfl

theorem kickSourceByUser_of_ne {userID : ℤ} (h : ∀ src ∈ m.source, src.userID ≠ userID) :
    m.kickSourceByUser ord ord' userID = (m, {}, false) := by
  unfold kickSourceByUser
  split
  next => rfl
  next src hsrc => exact if_pos (h src hsrc)

theorem kickSourceByUser_of_eq {src : SourceInfo} (h : m.source = some src) :
    (m.kickSourceByUser ord ord' src.userID).1.source = none ∧
      (m.kickSourceByUser ord ord' src.userID).2.1 =
        { stop := some src, kick := ord.visit m.clientsByID.values } := by
  unfold kickSourceByUser
  rw [h]
  simp [rebuildSnapshotLocked]

/-- A call takes the source off that it hits, stops it, and kicks the clients. Otherwise the source
stays, and nobody is kicked except by `DisconnectAll`. -/
theorem removal_cases (m : MountPoint) (op : RemovalOp) (ord ord' : RangeOrder Client) :
    (∃ src, m.source = some src ∧ op.Hits src ∧
      (m.apply (op.criticalSection ord ord')).source = none ∧
        m.teardown (op.criticalSection ord ord') =
          { stop := some src, kick := ord.visit m.clientsByID.values }) ∨
    ((∀ src ∈ m.source, ¬ op.Hits src) ∧
      (m.apply (op.criticalSection ord ord')).source = m.source ∧
        (m.teardown (op.criticalSection ord ord') = {} ∨ op = .disconnectAll ∧
          m.teardown (op.criticalSection ord ord') =
            { kick := ord.visit m.clientsByID.values })) := by
  by_cases hhit : ∃ src ∈ m.source, op.Hits src
  · obtain ⟨src, hsrc, hop⟩ := hhit
    refine .inl ⟨src, hsrc, hop, ?_⟩
    cases op with
    | clearSource srcID =>
      subst hop
      have heq : m.clearSource ord src.id = _ := clearSource_of_eq hsrc
      exact ⟨congrArg (fun p => p.1.source) heq, congrArg Prod.snd heq⟩
    | kickSourceByUser userID =>
      subst hop
      exact kickSourceByUser_of_eq hsrc
    | disconnectAll =>
      refine ⟨rfl, ?_⟩
      rw [← hsrc]
      rfl
  · have hmiss : ∀ src ∈ m.source, ¬ op.Hits src := fun src hsrc hop => hhit ⟨src, hsrc, hop⟩
    refine .inr ⟨hmiss, ?_⟩
    cases op with
    | clearSource srcID =>
      have heq : m.clearSource ord srcID = (m, {}) := clearSource_of_ne hmiss
      exact ⟨congrArg (fun p => p.1.source) heq, .inl (congrArg Prod.snd heq)⟩
    | kickSourceByUser userID =>
      have heq : m.kickSourceByUser ord ord' userID = (m, {}, false) :=
        kickSourceByUser_of_ne hmiss
      exact ⟨congrArg (fun p => p.1.source) heq, .inl (congrArg (fun p => p.2.1) heq)⟩
    | disconnectAll =>
      have hnone : m.source = none := Option.eq_none_iff_forall_not_mem.mpr fun src hsrc =>
        hmiss src hsrc trivial
      refine ⟨hnone.symm, .inr ⟨rfl, ?_⟩⟩
      rw [← hnone]
      rfl

/-- A removing call kicks registered clients. -/
theorem mem_kick_removal {op : RemovalOp} {d : Client}
    (hd : d ∈ (m.teardown (op.criticalSection ord ord')).kick) : d ∈ m.clientsByID.values := by
  rcases m.removal_cases op ord ord' with ⟨_, _, _, _, ht⟩ | ⟨_, _, ht | ⟨_, ht⟩⟩
  · rw [ht] at hd
    exact ord.mem_visit.mp hd
  · rw [ht] at hd
    cases hd
  · rw [ht] at hd
    exact ord.mem_visit.mp hd

end MountPoint

/-! ## What a step does to sessions, calls and slots -/

/-- The call has not come to its critical section. -/
def RemovalPC.waiting : RemovalPC → Bool
  | sourceID | enter => true
  | _ => false

/-- The call is past its `Stop`. -/
def RemovalPC.stopped : RemovalPC → Bool
  | kick _ | returned => true
  | _ => false

/-- How a session goes on that neither takes the slot nor ends its read loop. -/
structure SourceSession.Goes (calls : List RemovalCall) (x x' : SourceSession) : Prop where
  mount : x'.mount = x.mount
  info : x'.info = x.info
  closeOnce : x.closeOnce.rank ≤ x'.closeOnce.rank
  admitted : x'.pc.admitted = x.pc.admitted
  looping : x.pc.looping = true → x'.pc.looping = true
  leaving : ∀ j, x'.pc = .clearSource j → x.pc = .clearSource j
  waiting : ∀ j, x.pc = .clearSource j → ∀ c ∈ calls[j]?, c.pc = .enter → x'.pc = .clearSource j

/-- How a call goes on outside its critical section. -/
structure RemovalCall.Goes (sources : List SourceSession) (c c' : RemovalCall) : Prop where
  mount : c'.mount = c.mount
  removed : c'.removed = c.removed
  waiting : c'.pc.waiting = c.pc.waiting
  op : c.pc ≠ .sourceID → c'.op = c.op ∧ c'.pc ≠ .sourceID
  enter : c.pc = .enter → c' = c
  stopped : c'.pc.stopped = true → c.pc.stopped = true ∨
    ∀ k ∈ c.removed, ∀ x ∈ sources[k]?, x.closeOnce = .connClosed

theorem SourceSession.Goes.refl (calls : List RemovalCall) (x : SourceSession) : x.Goes calls x :=
  ⟨rfl, rfl, Nat.le_refl _, rfl, id, fun _ => id, fun _ h _ _ _ => h⟩

theorem RemovalCall.Goes.refl (sources : List SourceSession) (c : RemovalCall) :
    c.Goes sources c :=
  ⟨rfl, rfl, rfl, fun h => ⟨rfl, h⟩, fun _ => rfl, .inl⟩

/-- A call that only moves on, from another point than its critical section. -/
theorem RemovalCall.Goes.of_pc {sources : List SourceSession} {c : RemovalCall} {pc : RemovalPC}
    (hwaiting : pc.waiting = c.pc.waiting) (henter : c.pc ≠ .enter) (hpc : pc ≠ .sourceID)
    (hstopped : pc.stopped = true → c.pc.stopped = true ∨
      ∀ k ∈ c.removed, ∀ x ∈ sources[k]?, x.closeOnce = .connClosed) :
    c.Goes sources { c with pc := pc } where
  mount := rfl
  removed := rfl
  waiting := hwaiting
  op _ := ⟨rfl, hpc⟩
  enter he := absurd he henter
  stopped := hstopped

theorem ReadLoopPC.looping_of_not_admitted {pc : ReadLoopPC} (h : pc.admitted = false) :
    pc.looping = false := by
  cases pc <;> first | rfl | cases h

theorem ReadLoopPC.admitted_of_looping {pc : ReadLoopPC} (h : pc.looping = true) :
    pc.admitted = true := by
  cases pc <;> first | rfl | cases h

/-- A session that is not waiting for its `ClearSource` goes on to a point at which it does not
either. -/
theorem SourceSession.Goes.of_pc {calls : List RemovalCall} {x x' : SourceSession}
    (hmount : x'.mount = x.mount) (hinfo : x'.info = x.info) (hclose : x'.closeOnce = x.closeOnce)
    (hadmitted : x'.pc.admitted = x.pc.admitted)
    (hlooping : x.pc.looping = true → x'.pc.looping = true)
    (hleaving : ∀ j, x'.pc ≠ .clearSource j)
    (hwaiting : ∀ j, x.pc = .clearSource j → ∀ c ∈ calls[j]?, c.pc ≠ .enter) : x.Goes calls x' where
  mount := hmount
  info := hinfo
  closeOnce := Nat.le_of_eq (congrArg CloseState.rank hclose.symm)
  admitted := hadmitted
  looping := hlooping
  leaving j h := absurd h (hleaving j)
  waiting j h c hc he := absurd he (hwaiting j h c hc)

/-- What moves a session touches no slot. -/
theorem SourceSession.Moves.goes {calls : List RemovalCall} {x x' : SourceSession}
    (h : x.Moves calls x') : x.Goes calls x' := by
  cases h with
  | @check pc hpc hpc' =>
    refine .of_pc rfl rfl rfl (hpc'.trans hpc.symm) (fun hl => ?_) (fun j hj => ?_) fun j hj => ?_
    · rw [ReadLoopPC.looping_of_not_admitted hpc] at hl
      cases hl
    · rw [show pc = .clearSource j from hj] at hpc'
      cases hpc'
    · rw [hj] at hpc
      cases hpc
  | @loop pc hpc hpc' =>
    have hloop : pc.looping = true := by rcases hpc' with rfl | rfl <;> rfl
    have hpc : x.pc.looping = true := by rcases hpc with hpc | hpc | hpc <;> rw [hpc] <;> rfl
    refine .of_pc rfl rfl rfl ?_ (fun _ => hloop) (fun j hj => ?_) fun j hj => ?_
    · exact (ReadLoopPC.admitted_of_looping hloop).trans
        (ReadLoopPC.admitted_of_looping hpc).symm
    · rw [show pc = .clearSource j from hj] at hloop
      cases hloop
    · rw [hj] at hpc
      cases hpc
  | next hpc hidle =>
    exact .of_pc rfl rfl rfl (by rw [hpc]; rfl) (fun _ => rfl) nofun
      fun j hj => by rw [hpc] at hj; cases hj
  | @close j c hpc hc hreturned =>
    refine .of_pc rfl rfl rfl (by rw [hpc]; rfl) (fun hl => ?_) nofun fun i hi d hd he => ?_
    · rw [hpc] at hl
      cases hl
    · obtain rfl := ReadLoopPC.clearSource.inj (hpc.symm.trans hi)
      obtain rfl := Option.some.inj (hc.symm.trans hd)
      rw [hreturned] at he
      cases he
  | finish hpc hclosed =>
    exact .of_pc rfl rfl rfl (by rw [hpc]; rfl) (fun hl => by rw [hpc] at hl; cases hl) nofun
      fun j hj => by rw [hpc] at hj; cases hj
  | closing hclose => exact ⟨rfl, rfl, hclose, rfl, id, fun _ => id, fun _ hj _ _ _ => hj⟩

namespace CasterState

/-- A session that starts: its ID is new. -/
def Connects (s : CasterState) (x : SourceSession) : Prop :=
  x.info.ref = s.sources.length ∧ x.pc = .isEnabled ∧ ∀ y ∈ s.sources, y.info.id ≠ x.info.id

/-- A call that starts outside a read loop. -/
def Requested (c : RemovalCall) : Prop :=
  c.removed = none ∧ c.pc.waiting = true

/-- An event that is not the taking of a slot; a rover is registered once. -/
def Notes (s : CasterState) : SlotEvent → Prop
  | .took _ => False
  | .joined i => ∃ x ∈ s.rovers.sessions, x.client.ref = i ∧ x.pc.admitted = false
  | .put .. => True

/-- A step leaves the slots alone, or a session takes the slot, or ends its read loop, or a call
goes through its critical section and hits the source or not. -/
inductive SlotStep (s : CasterState) (a : CasterStep) : CasterState → Prop
  | quiet {s' : CasterState} (hslot : ∀ m, s'.rovers.slot m = s.rovers.slot m)
      (hsources : Moved s.Connects (SourceSession.Goes s.calls) s.sources s'.sources)
      (hcalls : Moved Requested (RemovalCall.Goes s.sources) s.calls s'.calls)
      (hlog : ∃ l, s'.log = s.log ++ l ∧ ∀ e ∈ l, s.Notes e) : SlotStep s a s'
  | took {s' : CasterState} {k : ℕ} {x : SourceSession} (ha : ∃ read, a = .source k read)
      (hx : s.sources[k]? = some x) (hpc : x.pc = .setSource)
      (hfree : s.rovers.slot x.mount = none)
      (hslot : ∀ m, s'.rovers.slot m = if m = x.mount then some x.info else s.rovers.slot m)
      (hsources : s'.sources = s.sources.set k { x with pc := .respond })
      (hcalls : s'.calls = s.calls) (hlog : s'.log = s.log ++ [.took k]) : SlotStep s a s'
  | leave {k : ℕ} {x : SourceSession} (hx : s.sources[k]? = some x)
      (hpc : x.pc = .select ∨ x.pc = .read) : SlotStep s a (s.leave k x)
  | hit {s' : CasterState} {j : ℕ} {c : RemovalCall} {src : SourceInfo} (kick : List Client)
      (ha : ∃ ord ord', a = .call j ord ord') (hc : s.calls[j]? = some c) (hpc : c.pc = .enter)
      (hsrc : s.rovers.slot c.mount = some src) (hop : c.op.Hits src)
      (hslot : ∀ m, s'.rovers.slot m = if m = c.mount then none else s.rovers.slot m)
      (hsources : s'.sources = s.sources)
      (hcalls : s'.calls =
        s.calls.set j { c with pc := .stop kick, removed := some src.ref })
      (hlog : s'.log = s.log) : SlotStep s a s'
  | miss {s' : CasterState} {j : ℕ} {c : RemovalCall} (kick : List Client)
      (hc : s.calls[j]? = some c) (hpc : c.pc = .enter)
      (hop : ∀ src ∈ s.rovers.slot c.mount, ¬ c.op.Hits src)
      (hslot : ∀ m, s'.rovers.slot m = s.rovers.slot m)
      (hsources : s'.sources = s.sources)
      (hcalls : s'.calls =
        s.calls.set j { c with pc := .stop kick, removed := none })
      (hlog : s'.log = s.log) : SlotStep s a s'

variable {s s' : CasterState} {a : CasterStep}

/-- The slots after a critical section on mountpoint `n`. -/
theorem slot_setMount {n : ℕ} {mt mt' : Mount} (hmt : s.rovers.mounts[n]? = some mt) (m : ℕ) :
    (s.rovers.setMount n mt').slot m = if m = n then mt'.point.source else s.rovers.slot m := by
  split
  next hmn =>
    subst hmn
    exact RoverState.slot_of_getElem? (getElem?_set_of_eq_some hmt)
  next hmn =>
    rw [RoverState.slot, RoverState.slot, RoverState.setMount,
      List.getElem?_set_ne fun h => hmn h.symm]

/-- A step that adds nothing to the log. -/
theorem exists_notes_nil (s : CasterState) :
    ∃ l, s.log = s.log ++ l ∧ ∀ e ∈ l, s.Notes e :=
  ⟨[], (List.append_nil _).symm, nofun⟩

theorem notes_joining {a : RoverStep} :
    ∀ e ∈ (s.rovers.joining a).toList.map fun x => SlotEvent.joined x.client.ref, s.Notes e := by
  intro e he
  obtain ⟨x, hx, rfl⟩ := List.mem_map.mp he
  unfold RoverState.joining at hx
  split at hx
  next i ord r =>
    obtain ⟨y, hy, hx⟩ := Option.bind_eq_some_iff.mp (Option.mem_toList.mp hx)
    obtain ⟨mt, -, hx⟩ := Option.bind_eq_some_iff.mp hx
    obtain ⟨⟨hpc, -⟩, hx⟩ := Option.ite_none_right_eq_some.mp hx
    obtain rfl := Option.some.inj hx
    exact ⟨y, List.mem_of_getElem? hy, rfl, by rw [hpc]; rfl⟩
  next => cases hx

theorem notes_puts {x : SourceSession} {k : ℕ} {case : SendCase} {holder : Option SourceInfo} :
    ∀ e ∈ x.puts k case holder, s.Notes e := by
  intro e he
  unfold SourceSession.puts at he
  split at he
  · obtain rfl := List.mem_singleton.mp he
    trivial
  · cases he

/-- Every effect does one of these to the slots, and all but `SetSource` and the critical sections
leave them alone. -/
theorem slotStep (he : CasterEffect s a s') : SlotStep s a s' := by
  cases he with
  | rover ha hb h =>
    exact .quiet (RoverState.slot_step h (.inl hb)) .same .same ⟨_, rfl, notes_joining⟩
  | connect mount id userID hid =>
    exact .quiet (fun _ => rfl) (.start ⟨rfl, rfl, hid⟩) .same s.exists_notes_nil
  | moves hx h => exact .quiet (fun _ => rfl) (.move hx h.goes) .same s.exists_notes_nil
  | read ha hx hpc =>
    refine .quiet (fun _ => rfl) (.move hx ?_) .same s.exists_notes_nil
    exact .of_pc rfl rfl rfl (by rw [hpc]; rfl) (fun _ => rfl) (fun j hj => by cases hj)
      fun j hj => by rw [hpc] at hj; cases hj
  | @took k x mt ha hx hmt hpc hfree =>
    have hslot := RoverState.slot_of_getElem? hmt
    have hsource : (mt.point.setSource x.info).1.source = some x.info := by
      simp [MountPoint.setSource, hfree]
    refine .took ha hx hpc (hslot.trans hfree) (fun m => ?_) rfl rfl rfl
    rw [slot_setMount hmt m, hsource]
  | leave hx hpc => exact .leave hx hpc
  | broadcast hx hpc h =>
    refine .quiet (moveBroadcast_slot (.inl ⟨_, _, rfl⟩) h) (.move hx ?_) .same s.exists_notes_nil
    exact .of_pc rfl rfl rfl (by rw [hpc]; rfl) (fun _ => rfl) (fun j hj => by cases hj)
      fun j hj => by rw [hpc] at hj; cases hj
  | deliver hx h =>
    refine .quiet (moveBroadcast_slot (.inr ⟨_, _, rfl⟩) h) (.move hx ?_) .same ⟨_, rfl, notes_puts⟩
    exact ⟨rfl, rfl, Nat.le_refl _, rfl, id, fun _ => id, fun _ hj _ _ _ => hj⟩
  | request hremoved hpc =>
    refine .quiet (fun _ => rfl) .same (.start ⟨hremoved, ?_⟩) s.exists_notes_nil
    rcases hpc with hpc | ⟨hpc, -⟩ <;> rw [hpc] <;> rfl
  | sourceID srcID hc hpc =>
    refine .quiet (fun _ => rfl) .same (.move hc ⟨rfl, rfl, by rw [hpc]; rfl, ?_, ?_, ?_⟩)
      s.exists_notes_nil
    · exact fun hne => absurd hpc hne
    · exact fun he => by rw [hpc] at he; cases he
    · exact fun hs => by cases hs
  | @enter j c mt ord ord' ha hc hmt hpc =>
    have hslot := RoverState.slot_of_getElem? hmt
    rcases mt.point.removal_cases c.op ord ord' with ⟨src, hsrc, hop, hnone, ht⟩ | ⟨hop, heq, ht⟩
    · refine .hit _ ⟨ord, ord', ha⟩ hc hpc (hslot.trans hsrc) hop (fun m => ?_) rfl
        (by rw [ht]; rfl) rfl
      rw [slot_setMount hmt m, hnone]
    · have hstop : (mt.point.teardown (c.op.criticalSection ord ord')).stop = none := by
        rcases ht with ht | ⟨-, ht⟩ <;> rw [ht]
      refine .miss _ hc hpc (hslot ▸ hop) (fun m => ?_) rfl (by rw [hstop]; rfl) rfl
      rw [slot_setMount hmt m, heq, ← hslot]
      exact ite_eq_right_iff.mpr fun hm => congrArg s.rovers.slot hm.symm
  | kick hc hpc hclosed =>
    refine .quiet (fun _ => rfl) .same (.move hc ?_) s.exists_notes_nil
    exact .of_pc (by rw [hpc]; rfl) (fun he => by rw [hpc] at he; cases he)
      (fun he => by cases he) fun _ => .inr hclosed
  | returned hc hpc h =>
    refine .quiet (fun _ => rfl) .same (.move hc ?_) s.exists_notes_nil
    exact .of_pc (by rw [hpc]; rfl) (fun he => by rw [hpc] at he; cases he)
      (fun he => by cases he) fun _ => .inl (by rw [hpc]; rfl)

end CasterState

/-- How any step may change a session. -/
structure SourceSession.Ages (x x' : SourceSession) : Prop where
  mount : x'.mount = x.mount
  info : x'.info = x.info
  closeOnce : x.closeOnce.rank ≤ x'.closeOnce.rank
  admitted : x.pc.admitted = true → x'.pc.admitted = true

theorem SourceSession.Ages.refl (x : SourceSession) : x.Ages x := ⟨rfl, rfl, Nat.le_refl _, id⟩

theorem SourceSession.Goes.ages {calls : List RemovalCall} {x x' : SourceSession}
    (h : x.Goes calls x') : x.Ages x' :=
  ⟨h.mount, h.info, h.closeOnce, h.admitted.trans⟩

/-- A closed connection stays closed. -/
theorem SourceSession.Ages.connClosed {x x' : SourceSession} (h : x.Ages x')
    (hc : x.closeOnce = .connClosed) : x'.closeOnce = .connClosed := by
  have hle := h.closeOnce
  rw [hc] at hle
  exact CloseState.eq_connClosed hle

namespace CasterState

variable {s s' : CasterState} {a : CasterStep}

/-- Every step ages the sessions. -/
theorem SlotStep.ages (h : SlotStep s a s') :
    Moved s.Connects SourceSession.Ages s.sources s'.sources := by
  cases h with
  | quiet hslot hsources hcalls hlog => exact hsources.mono fun _ _ => SourceSession.Goes.ages
  | took ha hx hpc hfree hslot hsources hcalls hlog =>
    rw [hsources]
    exact .move hx ⟨rfl, rfl, Nat.le_refl _, fun _ => rfl⟩
  | leave hx hpc => exact .move hx ⟨rfl, rfl, Nat.le_refl _, fun _ => rfl⟩
  | hit kick ha hc hpc hsrc hop hslot hsources hcalls hlog =>
    rw [hsources]
    exact .same
  | miss kick hc hpc hop hslot hsources hcalls hlog =>
    rw [hsources]
    exact .same

/-! ## The invariant -/

/-- The session is in the slot of its mountpoint. -/
def Holds (s : CasterState) (x : SourceSession) : Prop := s.rovers.slot x.mount = some x.info

/-- The read loop of the session has not come to the end of its `ClearSource`: it is on its way
round, or the critical section of that call is still ahead. -/
def Lives (s : CasterState) (x : SourceSession) : Prop :=
  x.pc.looping = true ∨
    ∃ j c, x.pc = .clearSource j ∧ s.calls[j]? = some c ∧ c.pc = .enter

/-- The call has removed the session. -/
structure Removed (s : CasterState) (c : RemovalCall) (x : SourceSession) : Prop where
  mount : x.mount = c.mount
  hits : c.op.Hits x.info
  admitted : x.pc.admitted = true
  gone : ¬ s.Holds x
  closed : c.pc.stopped = true → x.closeOnce = .connClosed

/-- Sessions have their own IDs, a read loop that ends clears its own source, whoever is in a slot
has a read loop that has still to do so, and who has been removed is not in the slot and is closed
once its `Stop` has returned. -/
structure SlotInv (s : CasterState) : Prop where
  ref : ∀ (k : ℕ) (x : SourceSession), s.sources[k]? = some x → x.info.ref = k
  ids : ∀ (k k' : ℕ) (x x' : SourceSession), s.sources[k]? = some x → s.sources[k']? = some x' →
    x.info.id = x'.info.id → k = k'
  leaving : ∀ (k : ℕ) (x : SourceSession) (j : ℕ), s.sources[k]? = some x →
    x.pc = .clearSource j → ∃ c, s.calls[j]? = some c ∧ c.mount = x.mount ∧
      c.op = .clearSource x.info.id ∧ c.pc ≠ .sourceID
  holder : ∀ m src, s.rovers.slot m = some src →
    ∃ x, s.sources[src.ref]? = some x ∧ x.info = src ∧ x.mount = m ∧ s.Lives x
  waiting : ∀ (j : ℕ) (c : RemovalCall), s.calls[j]? = some c → c.pc.waiting = true →
    c.removed = none
  removed : ∀ (j : ℕ) (c : RemovalCall) (k : ℕ), s.calls[j]? = some c → c.removed = some k →
    ∃ x, s.sources[k]? = some x ∧ s.Removed c x

theorem Lives.admitted {x : SourceSession} (h : s.Lives x) : x.pc.admitted = true := by
  rcases h with h | ⟨j, c, h, -⟩
  · exact ReadLoopPC.admitted_of_looping h
  · rw [h]
    rfl

/-- A critical section of a call that is not the session's own. -/
theorem Lives.of_set {x : SourceSession} (h : s.Lives x) {j : ℕ} {c : RemovalCall}
    (hcalls : s'.calls = s.calls.set j c) (hnot : x.pc ≠ .clearSource j) : s'.Lives x := by
  rcases h with hloop | ⟨i, d, hpc, hd, henter⟩
  · exact .inl hloop
  · refine .inr ⟨i, d, hpc, ?_, henter⟩
    have hne : j ≠ i := by
      rintro rfl
      exact hnot hpc
    rw [hcalls, List.getElem?_set_ne hne]
    exact hd

theorem SlotInv.init {r : RoverState} (h : ∀ mt ∈ r.mounts, mt.Fresh) :
    SlotInv ⟨r, [], [], []⟩ where
  ref k x hx := by cases hx
  ids k k' x x' hx := by cases hx
  leaving k x j hx := by cases hx
  holder m src hsrc := by
    obtain ⟨mt, hmt, hsrc⟩ := Option.bind_eq_some_iff.mp hsrc
    obtain ⟨_, _, _, _, _, _, rfl⟩ := h mt (List.mem_of_getElem? hmt)
    cases hsrc
  waiting j c hc := by cases hc
  removed j c k hc := by cases hc

namespace SlotInv

/-- A session that has not been admitted is not in a slot. -/
theorem ref_ne_of_slot (h : s.SlotInv) {k m : ℕ} {x : SourceSession} (hx : s.sources[k]? = some x)
    (hpc : x.pc.admitted = false) {src : SourceInfo} (hsrc : s.rovers.slot m = some src) :
    src.ref ≠ k := by
  rintro rfl
  obtain ⟨y, hy, -, -, hlives⟩ := h.holder m src hsrc
  obtain rfl := Option.some.inj (hx.symm.trans hy)
  rw [hlives.admitted] at hpc
  cases hpc

theorem step_ref (h : s.SlotInv) (hs : SlotStep s a s') :
    ∀ (k : ℕ) (x : SourceSession), s'.sources[k]? = some x → x.info.ref = k := by
  intro k x hx
  rcases hs.ages.of_getElem? SourceSession.Ages.refl hx with ⟨y, hy, hage⟩ | ⟨rfl, hnew⟩
  · rw [hage.info]
    exact h.ref k y hy
  · exact hnew.1

theorem step_ids (h : s.SlotInv) (hs : SlotStep s a s') :
    ∀ (k k' : ℕ) (x x' : SourceSession), s'.sources[k]? = some x → s'.sources[k']? = some x' →
      x.info.id = x'.info.id → k = k' := by
  intro k k' x x' hx hx' hid
  rcases hs.ages.of_getElem? SourceSession.Ages.refl hx with ⟨y, hy, hage⟩ | ⟨rfl, hnew⟩
  · rcases hs.ages.of_getElem? SourceSession.Ages.refl hx' with ⟨y', hy', hage'⟩ | ⟨rfl, hnew⟩
    · exact h.ids k k' y y' hy hy' (by rw [← hage.info, ← hage'.info]; exact hid)
    · refine absurd ?_ (hnew.2.2 y (List.mem_of_getElem? hy))
      rw [← hage.info]
      exact hid
  · rcases hs.ages.of_getElem? SourceSession.Ages.refl hx' with ⟨y', hy', hage'⟩ | ⟨rfl, -⟩
    · refine absurd ?_ (hnew.2.2 y' (List.mem_of_getElem? hy'))
      rw [← hage'.info]
      exact hid.symm
    · rfl

/-- A session that waits at its end has made a `ClearSource` call of its own. -/
theorem step_leaving (h : s.SlotInv) (hs : SlotStep s a s') :
    ∀ (k : ℕ) (x : SourceSession) (j : ℕ), s'.sources[k]? = some x → x.pc = .clearSource j →
      ∃ c, s'.calls[j]? = some c ∧ c.mount = x.mount ∧ c.op = .clearSource x.info.id ∧
        c.pc ≠ .sourceID := by
  intro k x j hx hpc
  cases hs with
  | quiet hslot hsources hcalls hlog =>
    rcases hsources.of_getElem? (SourceSession.Goes.refl _) hx with ⟨y, hy, hgo⟩ | ⟨-, hnew⟩
    · obtain ⟨c, hc, hmount, hop, hne⟩ := h.leaving k y j hy (hgo.leaving j hpc)
      obtain ⟨c', hc', hgo'⟩ := hcalls.exists_getElem? (RemovalCall.Goes.refl _) hc
      obtain ⟨hop', hne'⟩ := hgo'.op hne
      refine ⟨c', hc', ?_, ?_, hne'⟩
      · rw [hgo'.mount, hgo.mount, hmount]
      · rw [hop', hgo.info, hop]
    · rw [hnew.2.1] at hpc
      cases hpc
  | took ha hx₀ hpc₀ hfree hslot hsources hcalls hlog =>
    rw [hsources] at hx
    rw [hcalls]
    rcases getElem?_set_eq_some hx with ⟨rfl, rfl⟩ | ⟨-, hx⟩
    · cases hpc
    · exact h.leaving k x j hx hpc
  | @leave k₀ x₀ hx₀ hpc₀ =>
    rcases getElem?_set_eq_some hx with ⟨rfl, rfl⟩ | ⟨-, hx⟩
    · obtain rfl := ReadLoopPC.clearSource.inj hpc
      exact ⟨_, List.getElem?_concat_length, rfl, rfl, nofun⟩
    · obtain ⟨c, hc, hrest⟩ := h.leaving k x j hx hpc
      exact ⟨c, getElem?_append_of_eq_some hc, hrest⟩
  | hit kick ha hc hpc₀ hsrc hop hslot hsources hcalls hlog =>
    rw [hsources] at hx
    rw [hcalls]
    exact exists_getElem?_set hc (h.leaving k x j hx hpc) fun _ ⟨hm, ho, _⟩ => ⟨hm, ho, nofun⟩
  | miss kick hc hpc₀ hop hslot hsources hcalls hlog =>
    rw [hsources] at hx
    rw [hcalls]
    exact exists_getElem?_set hc (h.leaving k x j hx hpc) fun _ ⟨hm, ho, _⟩ => ⟨hm, ho, nofun⟩

/-- Whoever is in a slot lives on while no critical section of its own takes it off. -/
theorem step_holder (h : s.SlotInv) (hs : SlotStep s a s') :
    ∀ m src, s'.rovers.slot m = some src →
      ∃ x, s'.sources[src.ref]? = some x ∧ x.info = src ∧ x.mount = m ∧ s'.Lives x := by
  intro m src hsrc
  cases hs with
  | quiet hslot hsources hcalls hlog =>
    rw [hslot] at hsrc
    obtain ⟨x, hx, hinfo, hmount, hlives⟩ := h.holder m src hsrc
    obtain ⟨x', hx', hgo⟩ := hsources.exists_getElem? (SourceSession.Goes.refl _) hx
    refine ⟨x', hx', hgo.info.trans hinfo, hgo.mount.trans hmount, ?_⟩
    rcases hlives with hloop | ⟨j, c, hpc, hc, hce⟩
    · exact .inl (hgo.looping hloop)
    · obtain ⟨c', hc', hgo'⟩ := hcalls.exists_getElem? (RemovalCall.Goes.refl _) hc
      obtain rfl := hgo'.enter hce
      exact .inr ⟨j, c', hgo.waiting j hpc c' hc hce, hc', hce⟩
  | @took _ k x ha hx hpc hfree hslot hsources hcalls hlog =>
    rw [hslot] at hsrc
    rw [hsources]
    split at hsrc
    next hm =>
      obtain rfl := Option.some.inj hsrc
      refine ⟨{ x with pc := .respond }, ?_, rfl, hm.symm, .inl rfl⟩
      rw [h.ref k x hx]
      exact getElem?_set_of_eq_some hx
    next hm =>
      have hne := h.ref_ne_of_slot hx (by rw [hpc]; rfl) hsrc
      obtain ⟨y, hy, hinfo, hmount, hlives⟩ := h.holder m src hsrc
      refine ⟨y, (List.getElem?_set_ne hne.symm).trans hy, hinfo, hmount, ?_⟩
      rwa [Lives, hcalls]
  | @leave k x hx hpc =>
    obtain ⟨y, hy, hinfo, hmount, hlives⟩ := h.holder m src hsrc
    by_cases hk : src.ref = k
    · subst hk
      obtain rfl := Option.some.inj (hx.symm.trans hy)
      exact ⟨_, getElem?_set_of_eq_some hx, hinfo, hmount,
        .inr ⟨s.calls.length, _, rfl, List.getElem?_concat_length, rfl⟩⟩
    · refine ⟨y, (List.getElem?_set_ne fun hkr => hk hkr.symm).trans hy, hinfo, hmount, ?_⟩
      rcases hlives with hloop | ⟨j, c, hpc', hc, hce⟩
      · exact .inl hloop
      · exact .inr ⟨j, c, hpc',
          getElem?_append_of_eq_some hc, hce⟩
  | @hit _ j c info kick ha hc hpc hinfo hop hslot hsources hcalls hlog =>
    rw [hslot] at hsrc
    split at hsrc
    · cases hsrc
    next hm =>
      obtain ⟨x, hx, hxinfo, hmount, hlives⟩ := h.holder m src hsrc
      refine ⟨x, by rw [hsources]; exact hx, hxinfo, hmount, hlives.of_set hcalls fun hpc' => hm ?_⟩
      -- the session's own call would be on its own mountpoint
      obtain ⟨e, he, hmount', -⟩ := h.leaving src.ref x j hx hpc'
      obtain rfl := Option.some.inj (hc.symm.trans he)
      exact (hmount'.trans hmount).symm
  | @miss _ j c kick hc hpc hop hslot hsources hcalls hlog =>
    rw [hslot] at hsrc
    obtain ⟨x, hx, hxinfo, hmount, hlives⟩ := h.holder m src hsrc
    refine ⟨x, by rw [hsources]; exact hx, hxinfo, hmount, hlives.of_set hcalls fun hpc' => ?_⟩
    obtain ⟨e, he, hmount', hclear, -⟩ := h.leaving src.ref x j hx hpc'
    obtain rfl := Option.some.inj (hc.symm.trans he)
    refine hop src ?_ ?_
    · rw [hmount', hmount]
      exact hsrc
    · rw [hclear, hxinfo]
      exact rfl

/-- A call has removed nobody before its critical section. -/
theorem step_waiting (h : s.SlotInv) (hs : SlotStep s a s') :
    ∀ (j : ℕ) (c : RemovalCall), s'.calls[j]? = some c → c.pc.waiting = true →
      c.removed = none := by
  intro j c hc hw
  cases hs with
  | quiet hslot hsources hcalls hlog =>
    rcases hcalls.of_getElem? (RemovalCall.Goes.refl _) hc with ⟨d, hd, hgo⟩ | ⟨-, hnew⟩
    · rw [hgo.removed]
      exact h.waiting j d hd (hgo.waiting.symm.trans hw)
    · exact hnew.1
  | took ha hx hpc hfree hslot hsources hcalls hlog =>
    rw [hcalls] at hc
    exact h.waiting j c hc hw
  | leave hx hpc =>
    rcases getElem?_snoc_eq_some hc with hc | ⟨-, rfl⟩
    · exact h.waiting j c hc hw
    · rfl
  | hit kick ha hc₀ hpc hsrc hop hslot hsources hcalls hlog =>
    rw [hcalls] at hc
    rcases getElem?_set_eq_some hc with ⟨rfl, rfl⟩ | ⟨-, hc⟩
    · cases hw
    · exact h.waiting j c hc hw
  | miss kick hc₀ hpc hop hslot hsources hcalls hlog =>
    rw [hcalls] at hc
    rcases getElem?_set_eq_some hc with ⟨rfl, rfl⟩ | ⟨-, hc⟩
    · cases hw
    · exact h.waiting j c hc hw

/-- A removed session remains so, since it is not put into the slot again. -/
theorem step_removed (h : s.SlotInv) (hs : SlotStep s a s') :
    ∀ (j : ℕ) (c : RemovalCall) (k : ℕ), s'.calls[j]? = some c → c.removed = some k →
      ∃ x, s'.sources[k]? = some x ∧ s'.Removed c x := by
  intro j c k hc hr
  -- a call that had removed the session, with slots that have not got it back
  have hold : ∀ {d : RemovalCall}, s.calls[j]? = some d → d.removed = some k →
      c.mount = d.mount → c.op = d.op →
      (c.pc.stopped = true → d.pc.stopped = true ∨
        ∀ k ∈ d.removed, ∀ x ∈ s.sources[k]?, x.closeOnce = .connClosed) →
      (∀ x, s.sources[k]? = some x → x.pc.admitted = true → s'.rovers.slot x.mount = some x.info →
        s.rovers.slot x.mount = some x.info) → ∃ x, s'.sources[k]? = some x ∧ s'.Removed c x := by
    intro d hd hdr hmount hop hstopped hslot
    obtain ⟨x, hx, hrem⟩ := h.removed j d k hd hdr
    obtain ⟨x', hx', hage⟩ := hs.ages.exists_getElem? SourceSession.Ages.refl hx
    refine ⟨x', hx', ?_, ?_, hage.admitted hrem.admitted, fun hholds => ?_, fun hstop => ?_⟩
    · rw [hage.mount, hrem.mount, hmount]
    · rw [hop, hage.info]
      exact hrem.hits
    · refine hrem.gone (hslot x hx hrem.admitted ?_)
      rw [← hage.mount, ← hage.info]
      exact hholds
    · rcases hstopped hstop with hstop | hclosed
      · exact hage.connClosed (hrem.closed hstop)
      · exact hage.connClosed (hclosed k hdr x hx)
  cases hs with
  | quiet hslot hsources hcalls hlog =>
    rcases hcalls.of_getElem? (RemovalCall.Goes.refl _) hc with ⟨d, hd, hgo⟩ | ⟨-, hnew⟩
    · have hdr := hgo.removed.symm.trans hr
      have hne : d.pc ≠ .sourceID := by
        intro he
        have hnone := h.waiting j d hd (by rw [he]; rfl)
        rw [hnone] at hdr
        cases hdr
      refine hold hd hdr hgo.mount (hgo.op hne).1 hgo.stopped fun x _ _ hholds => ?_
      rw [← hslot]
      exact hholds
    · rw [hnew.1] at hr
      cases hr
  | @took _ k₀ x₀ ha hx₀ hpc₀ hfree hslot hsources hcalls hlog =>
    rw [hcalls] at hc
    refine hold hc hr rfl rfl .inl fun x hx hadm hholds => ?_
    rw [hslot] at hholds
    split at hholds
    next hm =>
      -- the session that takes the slot has not been admitted before
      have hinfo := congrArg SourceInfo.ref (Option.some.inj hholds)
      rw [h.ref k₀ x₀ hx₀, h.ref k x hx] at hinfo
      subst hinfo
      obtain rfl := Option.some.inj (hx.symm.trans hx₀)
      rw [hpc₀] at hadm
      cases hadm
    next => exact hholds
  | leave hx hpc =>
    rcases getElem?_snoc_eq_some hc with hc | ⟨-, rfl⟩
    · exact hold hc hr rfl rfl .inl fun _ _ _ => id
    · cases hr
  | @hit _ j₀ c₀ src kick ha hc₀ hpc hsrc hop hslot hsources hcalls hlog =>
    have hslot' : ∀ x : SourceSession, s'.rovers.slot x.mount = some x.info →
        s.rovers.slot x.mount = some x.info := by
      intro x hholds
      rw [hslot] at hholds
      split at hholds
      · cases hholds
      · exact hholds
    rw [hcalls] at hc
    rcases getElem?_set_eq_some hc with ⟨rfl, rfl⟩ | ⟨-, hc⟩
    · obtain rfl := Option.some.inj hr
      obtain ⟨x, hx, hinfo, hmount, hlives⟩ := h.holder c₀.mount src hsrc
      refine ⟨x, by rw [hsources]; exact hx, hmount, hinfo ▸ hop, hlives.admitted, ?_, nofun⟩
      rw [Holds, hslot, if_pos hmount]
      exact nofun
    · exact hold hc hr rfl rfl .inl fun x _ _ => hslot' x
  | miss kick hc₀ hpc hop hslot hsources hcalls hlog =>
    rw [hcalls] at hc
    rcases getElem?_set_eq_some hc with ⟨rfl, rfl⟩ | ⟨-, hc⟩
    · cases hr
    · refine hold hc hr rfl rfl .inl fun x _ _ hholds => ?_
      rw [← hslot]
      exact hholds

theorem step (h : s.SlotInv) (hs : SlotStep s a s') : s'.SlotInv where
  ref := h.step_ref hs
  ids := h.step_ids hs
  leaving := h.step_leaving hs
  holder := h.step_holder hs
  waiting := h.step_waiting hs
  removed := h.step_removed hs

end SlotInv

end CasterState

open CasterState

theorem casterSystem_slotInv {maxClients : ℤ} {s : CasterState}
    (h : (casterSystem maxClients).Reachable s) : s.SlotInv := by
  refine h.invariant ?_ fun s a s' _ hs hstep => hs.step (slotStep (step_effect hstep))
  rintro s ⟨mounts, hfresh, rfl⟩
  exact .init hfresh

end NtripCaster
