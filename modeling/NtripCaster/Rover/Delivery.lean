import NtripCaster.Rover.Registered

/-!
# Gap-free delivery

What a rover receives of the broadcasts on its mountpoint. Seen from one client, the broadcasts
fall into those before it joined the snapshot, those during its stay, and those after it left;
what was accepted into its queue is an initial part of the middle block, and all of it unless
`Done` is closed.

## Main definitions

* `Feed`: a client's place in the sequence of broadcasts
* `Feed.Tracks`: a session is at that place
* `Delivering`: the broadcasts of a mountpoint and the sessions they reach

## Main results

* `Delivering.setSession`, `Delivering.setMount`, `Delivering.accept`, …: what each effect keeps
* `gapFree_delivery`: the accepted packets are one block, in order; who misses one is `Done`; the
  wire holds a prefix; and `KickCount` counts the slow clients
-/

namespace NtripCaster

open Transition RoverState

/-- A client's place in the sequence of broadcasts: so many before it joined the snapshot, during
its stay and after it left, and so many accepted. -/
structure Feed where
  before : ℕ
  during : ℕ
  after : ℕ
  taken : ℕ

namespace Feed

/-- Which of the broadcasts had the client in their snapshot. -/
def present (φ : Feed) : List Bool :=
  List.replicate φ.before false ++ List.replicate φ.during true ++ List.replicate φ.after false

/-- The numbers of the accepted broadcasts. -/
def accepted (φ : Feed) : List ℕ := List.range' φ.before φ.taken

@[simp] theorem length_present (φ : Feed) : φ.present.length = φ.before + φ.during + φ.after := by
  simp [present, Nat.add_assoc]

theorem present_eq_true {φ : Feed} {j : ℕ} :
    φ.present[j]? = some true ↔ φ.before ≤ j ∧ j < φ.before + φ.during := by
  simp only [present, List.getElem?_append, List.getElem?_replicate, List.length_append,
    List.length_replicate]
  split_ifs <;> simp <;> omega

end Feed

namespace BroadcastPC

/-- The clients of the snapshot that the loop has not dealt with. -/
def pending : BroadcastPC → List Client
  | idle => []
  | loop _ todo => todo
  | select _ c todo | slowClients _ c todo | kickCount _ c todo | markSlow _ c todo
  | kick _ c todo => c :: todo

/-- The packet that is broadcast. -/
def packet : BroadcastPC → Option RTCMPacket
  | idle => none
  | loop pkt _ | select pkt _ _ | slowClients pkt _ _ | kickCount pkt _ _ | markSlow pkt _ _
  | kick pkt _ _ => some pkt

/-- The client that may still accept the packet. -/
def selecting : BroadcastPC → Option Client
  | select _ c _ => some c
  | _ => none

/-- The client that has been found open and has not been marked slow. -/
def unmarked : BroadcastPC → Option Client
  | select _ c _ | slowClients _ c _ | kickCount _ c _ | markSlow _ c _ => some c
  | _ => none

/-- The client that has been marked slow and is being kicked. -/
def kicking : BroadcastPC → Option Client
  | kick _ c _ => some c
  | _ => none

/-- The counter of kicks is one ahead of the slow flags. -/
def ahead : BroadcastPC → Bool
  | markSlow .. => true
  | _ => false

theorem mem_pending_of_selecting {pc : BroadcastPC} {c : Client} (h : pc.selecting = some c) :
    c ∈ pc.pending := by
  cases pc <;> simp_all [selecting, pending]

end BroadcastPC

/-- A session is at its place in the broadcasts of its mountpoint. -/
structure Feed.Tracks (φ : Feed) (mt : Mount) (x : Session) : Prop where
  taken_le : φ.taken ≤ φ.during
  present : mt.log.map (fun e => decide (x.client ∈ e.2)) = φ.present
  accepted : x.accepted.map Prod.fst = φ.accepted
  logged : ∀ q ∈ x.accepted, ∃ snap, mt.log[q.1]? = some (q.2, snap)
  snapshot : x.client ∈ mt.point.snapshot → φ.after = 0
  pending : x.client ∈ mt.broadcast.pending → φ.after = 0
  live : x.isDone = false →
    φ.taken + (if x.client ∈ mt.broadcast.pending then 1 else 0) = φ.during
  selecting : mt.broadcast.selecting = some x.client → φ.taken + 1 = φ.during

/-- The client `d` belongs to a session that mountpoint `m` has accepted. -/
def Admitted (sessions : List Session) (m : ℕ) (d : Client) : Prop :=
  ∃ x, sessions[d.ref]? = some x ∧ x.client = d ∧ x.mount = m ∧ x.pc.admitted = true

/-- The broadcasts of mountpoint `m` and the sessions they reach. -/
structure Delivering (m : ℕ) (mt : Mount) (sessions : List Session) : Prop where
  log_known : ∀ e ∈ mt.log, ∀ d ∈ e.2, Admitted sessions m d
  pending_known : ∀ d ∈ mt.broadcast.pending, Admitted sessions m d
  pending_nodup : mt.broadcast.pending.Nodup
  current : ∀ pkt, mt.broadcast.packet = some pkt → ∃ snap, mt.log.getLast? = some (pkt, snap)
  feed : ∀ (i : ℕ) (x : Session), sessions[i]? = some x → x.mount = m → ∃ φ : Feed, φ.Tracks mt x
  slow_done : ∀ (i : ℕ) (x : Session), sessions[i]? = some x → x.mount = m → x.slow = true →
    x.isDone = true ∨ mt.broadcast.kicking = some x.client
  unmarked : ∀ (i : ℕ) (x : Session), sessions[i]? = some x → x.mount = m →
    mt.broadcast.unmarked = some x.client → x.slow = false
  kickCount : mt.point.stats.kickCount =
    sessions.countP (fun x => x.mount == m && x.slow) + mt.broadcast.ahead.toNat

/-- What a move of a session leaves as it is, seen from mountpoint `m`: whom the session is, once
it is admitted; and on its own mountpoint, what it has accepted and its slow flag. -/
structure Session.KeepsFor (m : ℕ) (x x' : Session) : Prop where
  mount : x'.mount = x.mount
  admitted : x.pc.admitted = true → x'.client = x.client ∧ x'.pc.admitted = true
  own : x.mount = m → x'.client = x.client ∧ x'.accepted = x.accepted ∧ x'.slow = x.slow ∧
    (x.isDone = true → x'.isDone = true)

theorem Session.Moves.keepsFor {x x' : Session} (h : x.Moves x') (m : ℕ) : x.KeepsFor m x' where
  mount := h.mount
  admitted ha := ⟨h.client, h.admitted.trans ha⟩
  own _ := ⟨h.client, h.accepted, h.slow, h.isDone⟩

/-- Other mountpoints see only that an admitted session stays who it is. -/
theorem Session.KeepsFor.of_ne {m : ℕ} {x x' : Session} (hne : x.mount ≠ m)
    (hmount : x'.mount = x.mount)
    (h : x.pc.admitted = true → x'.client = x.client ∧ x'.pc.admitted = true) :
    x.KeepsFor m x' where
  mount := hmount
  admitted := h
  own hm := absurd hm hne

/-- A step of an admitted session to another point past its registration. -/
theorem Session.keepsFor_setPC (x : Session) {pc : RoverPC} (hpc : pc.admitted = true) (m : ℕ) :
    x.KeepsFor m { x with pc := pc } where
  mount := rfl
  admitted _ := ⟨rfl, hpc⟩
  own _ := ⟨rfl, rfl, rfl, id⟩

/-- A place does not change when the session moves and accepts nothing. -/
theorem Feed.Tracks.keeps {φ : Feed} {mt : Mount} {x x' : Session} (h : φ.Tracks mt x)
    (hclient : x'.client = x.client) (hacc : x'.accepted = x.accepted)
    (hdone : x.isDone = true → x'.isDone = true) : φ.Tracks mt x' where
  taken_le := h.taken_le
  present := hclient ▸ h.present
  accepted := hacc ▸ h.accepted
  logged := hacc ▸ h.logged
  snapshot := hclient ▸ h.snapshot
  pending := hclient ▸ h.pending
  live hx := by
    rw [hclient]
    refine h.live ?_
    by_contra hne
    rw [hdone (by simpa using hne)] at hx
    cases hx
  selecting := hclient ▸ h.selecting

/-- Nor when the broadcast deals with other clients. -/
theorem Feed.Tracks.setBroadcast {φ : Feed} {mt : Mount} {x : Session} (h : φ.Tracks mt x)
    {pc : BroadcastPC} (hpend : x.client ∈ pc.pending ↔ x.client ∈ mt.broadcast.pending)
    (hsel : pc.selecting = none) : φ.Tracks { mt with broadcast := pc } x where
  taken_le := h.taken_le
  present := h.present
  accepted := h.accepted
  logged := h.logged
  snapshot := h.snapshot
  pending hp := h.pending (hpend.mp hp)
  live hd := by
    simp only [hpend]
    exact h.live hd
  selecting hs := by
    rw [hsel] at hs
    cases hs

/-- The client being served accepts the packet of the broadcast in progress, the next one of its
stay. -/
theorem Feed.Tracks.accept {φ : Feed} {mt : Mount} {x x' : Session} {pkt : RTCMPacket}
    {todo : List Client} {snap : List Client} (h : φ.Tracks mt x)
    (hpc : mt.broadcast = .select pkt x.client todo) (hnot : x.client ∉ todo)
    (hlast : mt.log.getLast? = some (pkt, snap))
    (hacc : Session.Accepts (mt.log.length - 1) pkt x x') :
    Feed.Tracks { φ with taken := φ.taken + 1 } { mt with broadcast := .loop pkt todo } x' := by
  have hsel : mt.broadcast.selecting = some x.client := by rw [hpc]; rfl
  have htaken := h.selecting hsel
  have hafter := h.pending (BroadcastPC.mem_pending_of_selecting hsel)
  have hlen : mt.log.length = φ.before + φ.during := by
    have := congrArg List.length h.present
    simp only [List.length_map, Feed.length_present, hafter] at this
    omega
  refine ⟨htaken.le, hacc.client ▸ h.present, ?_, ?_, fun _ => hafter, fun _ => hafter,
    fun _ => ?_, nofun⟩
  · have hnum : mt.log.length - 1 = φ.before + φ.taken := by omega
    rw [hacc.accepted, List.map_append, h.accepted]
    simp [Feed.accepted, hnum, List.range'_concat]
  · intro q hq
    rw [hacc.accepted] at hq
    rcases List.mem_append.mp hq with hq | hq
    · exact h.logged q hq
    · obtain rfl := List.mem_singleton.mp hq
      exact ⟨snap, by rw [← List.getLast?_eq_getElem?]; exact hlast⟩
  · have hp : x'.client ∉ (BroadcastPC.loop pkt todo).pending := hacc.client ▸ hnot
    rw [if_neg hp]
    exact htaken

/-- What was accepted is a block of the broadcasts that starts where the stay does. -/
theorem Feed.Tracks.packets_eq {φ : Feed} {mt : Mount} {x : Session} (h : φ.Tracks mt x) :
    x.packets = ((mt.log.map Prod.fst).drop φ.before).take φ.taken := by
  have hlen : x.accepted.length = φ.taken := by
    simpa [Feed.accepted] using congrArg List.length h.accepted
  refine List.ext_getElem? fun k => ?_
  by_cases hk : k < φ.taken
  · have hk' : k < x.accepted.length := hlen ▸ hk
    obtain ⟨snap, hlog⟩ := h.logged x.accepted[k] (List.getElem_mem hk')
    -- the k-th accepted broadcast is the k-th of the stay
    have hnum : (x.accepted[k]).1 = φ.before + k := by
      have := congrArg (·[k]?) h.accepted
      simpa [Feed.accepted, hk, hk', List.getElem?_range'] using this
    rw [hnum] at hlog
    simp [Session.packets, hk, hk', hlog]
  · have hk' : ¬ k < x.accepted.length := hlen ▸ hk
    rw [List.getElem?_eq_none, List.getElem?_eq_none]
    · simp only [List.length_take]
      omega
    · simpa [Session.packets] using hk'

theorem Feed.Tracks.length_packets {φ : Feed} {mt : Mount} {x : Session} (h : φ.Tracks mt x) :
    x.packets.length = φ.taken := by
  simpa [Session.packets, Feed.accepted] using congrArg List.length h.accepted

/-- The broadcasts of the stay are those that have the client in their snapshot. -/
theorem Feed.Tracks.mem_snapshot {φ : Feed} {mt : Mount} {x : Session} (h : φ.Tracks mt x) {j : ℕ}
    {e : RTCMPacket × List Client} (he : mt.log[j]? = some e) :
    x.client ∈ e.2 ↔ φ.before ≤ j ∧ j < φ.before + φ.during := by
  rw [← Feed.present_eq_true, ← h.present, List.getElem?_map, he]
  simp

/-- What a session has accepted is a block of the broadcasts on its mountpoint, without a gap,
that starts at the first one with the client in its snapshot; a later one that the client was
there for finds it `Done`, unless the broadcast in progress has not come to it yet. -/
def GapFree (mt : Mount) (x : Session) : Prop :=
  ∃ first, x.packets = ((mt.log.map Prod.fst).drop first).take x.packets.length ∧
    (∀ j e, mt.log[j]? = some e → j < first + x.packets.length →
      (x.client ∈ e.2 ↔ first ≤ j)) ∧
    (∀ j e, mt.log[j]? = some e → first + x.packets.length ≤ j → x.client ∈ e.2 →
      x.isDone = true ∨ j + 1 = mt.log.length ∧ x.client ∈ mt.broadcast.pending)

theorem Feed.Tracks.gapFree {φ : Feed} {mt : Mount} {x : Session} (h : φ.Tracks mt x) :
    GapFree mt x := by
  have hle := h.taken_le
  refine ⟨φ.before, ?_, fun j e he hj => ?_, fun j e he hj hin => ?_⟩
  · rw [h.length_packets]
    exact h.packets_eq
  · rw [h.length_packets] at hj
    rw [h.mem_snapshot he]
    omega
  · rw [h.length_packets] at hj
    rw [h.mem_snapshot he] at hin
    cases hd : x.isDone with
    | true => exact .inl rfl
    | false =>
      -- an open client has taken its whole stay, up to the broadcast in progress
      have hlive := h.live hd
      by_cases hp : x.client ∈ mt.broadcast.pending
      · have hlen := congrArg List.length h.present
        rw [if_pos hp] at hlive
        simp only [List.length_map, Feed.length_present, h.pending hp] at hlen
        exact .inr ⟨by omega, hp⟩
      · rw [if_neg hp] at hlive
        omega

namespace Delivering

variable {m : ℕ} {mt mt' : Mount} {sessions : List Session} {i : ℕ} {x x' : Session}

/-- A session moves and keeps what the mountpoint sees of it. -/
theorem setSession (h : Delivering m mt sessions) (hx : sessions[i]? = some x)
    (hk : x.KeepsFor m x') : Delivering m mt (sessions.set i x') := by
  have hadm : ∀ d, Admitted sessions m d → Admitted (sessions.set i x') m d := by
    intro d hd
    refine exists_getElem?_set hx hd fun _ ⟨hc, hm, ha⟩ => ?_
    obtain ⟨hc', ha'⟩ := hk.admitted ha
    exact ⟨hc'.trans hc, hk.mount.trans hm, ha'⟩
  constructor
  · exact fun e he d hd => hadm d (h.log_known e he d hd)
  · exact fun d hd => hadm d (h.pending_known d hd)
  · exact h.pending_nodup
  · exact h.current
  · intro j y hy hm
    rcases getElem?_set_eq_some hy with ⟨rfl, rfl⟩ | ⟨-, hy⟩
    · obtain ⟨hc, hacc, -, hdone⟩ := hk.own (hk.mount.symm.trans hm)
      obtain ⟨φ, hφ⟩ := h.feed j x hx (hk.mount.symm.trans hm)
      exact ⟨φ, hφ.keeps hc hacc hdone⟩
    · exact h.feed j y hy hm
  · intro j y hy hm hs
    rcases getElem?_set_eq_some hy with ⟨rfl, rfl⟩ | ⟨-, hy⟩
    · obtain ⟨hc, -, hslow, hdone⟩ := hk.own (hk.mount.symm.trans hm)
      rw [hc]
      exact (h.slow_done j x hx (hk.mount.symm.trans hm) (hslow.symm.trans hs)).imp_left hdone
    · exact h.slow_done j y hy hm hs
  · intro j y hy hm hu
    rcases getElem?_set_eq_some hy with ⟨rfl, rfl⟩ | ⟨-, hy⟩
    · obtain ⟨hc, -, hslow, -⟩ := hk.own (hk.mount.symm.trans hm)
      rw [hslow]
      exact h.unmarked j x hx (hk.mount.symm.trans hm) (hu.trans (congrArg some hc))
    · exact h.unmarked j y hy hm hu
  · have hcount := countP_set (b := x') (fun x : Session => x.mount == m && x.slow) hx
    have hsame : (x'.mount == m && x'.slow) = (x.mount == m && x.slow) := by
      rw [hk.mount]
      by_cases hm : x.mount = m
      · rw [(hk.own hm).2.2.1]
      · rw [beq_false_of_ne hm, Bool.false_and, Bool.false_and]
    rw [hsame] at hcount
    have hold := h.kickCount
    omega

/-- A mountpoint moves on without a new broadcast: nobody joins its snapshot, and a client that
the loop has dealt with without marking it slow is `Done`. -/
theorem setMount (h : Delivering m mt sessions) (hlog : mt'.log = mt.log)
    (hsnap : ∀ d ∈ mt'.point.snapshot, d ∈ mt.point.snapshot)
    (hpend : mt'.broadcast.pending.Sublist mt.broadcast.pending)
    (hpkt : ∀ p, mt'.broadcast.packet = some p → mt.broadcast.packet = some p)
    (hdrop : ∀ (i : ℕ) (x : Session), sessions[i]? = some x → x.mount = m →
      x.client ∈ mt.broadcast.pending → x.client ∉ mt'.broadcast.pending → x.isDone = true)
    (hsel : ∀ (i : ℕ) (x : Session), sessions[i]? = some x →
      mt'.broadcast.selecting = some x.client →
        mt.broadcast.selecting = some x.client ∨
          x.client ∈ mt.broadcast.pending ∧ x.isDone = false)
    (hkick : ∀ (i : ℕ) (x : Session), sessions[i]? = some x →
      mt.broadcast.kicking = some x.client →
        mt'.broadcast.kicking = some x.client ∨ x.isDone = true)
    (hunm : ∀ (i : ℕ) (x : Session), sessions[i]? = some x →
      mt'.broadcast.unmarked = some x.client →
        mt.broadcast.unmarked = some x.client ∨
          x.isDone = false ∧ mt.broadcast.kicking = none)
    (hcount : mt'.point.stats.kickCount + mt.broadcast.ahead.toNat =
      mt.point.stats.kickCount + mt'.broadcast.ahead.toNat) :
    Delivering m mt' sessions := by
  constructor
  · exact hlog ▸ h.log_known
  · exact fun d hd => h.pending_known d (hpend.subset hd)
  · exact h.pending_nodup.sublist hpend
  · exact fun p hp => hlog ▸ h.current p (hpkt p hp)
  · intro i x hx hm
    obtain ⟨φ, hφ⟩ := h.feed i x hx hm
    refine ⟨φ, hφ.taken_le, hlog ▸ hφ.present, hφ.accepted, hlog ▸ hφ.logged,
      fun hs => hφ.snapshot (hsnap _ hs), fun hp => hφ.pending (hpend.subset hp), fun hd => ?_,
      fun hs => ?_⟩
    · have hlive := hφ.live hd
      -- `taken` falls behind `during` only for a client that leaves the list open
      by_cases hp' : x.client ∈ mt'.broadcast.pending
      · rw [if_pos (hpend.subset hp')] at hlive
        rw [if_pos hp']
        exact hlive
      · have hp : x.client ∉ mt.broadcast.pending := by
          intro hp
          rw [hdrop i x hx hm hp hp'] at hd
          cases hd
        rw [if_neg hp] at hlive
        rw [if_neg hp']
        exact hlive
    · rcases hsel i x hx hs with hs | ⟨hp, hd⟩
      · exact hφ.selecting hs
      · have hlive := hφ.live hd
        rwa [if_pos hp] at hlive
  · intro i x hx hm hs
    rcases h.slow_done i x hx hm hs with hd | hk
    · exact .inl hd
    · exact (hkick i x hx hk).symm
  · intro i x hx hm hu
    rcases hunm i x hx hu with hu | ⟨hd, hk⟩
    · exact h.unmarked i x hx hm hu
    · -- a slow client that is not being kicked would be `Done`
      by_contra hs
      rcases h.slow_done i x hx hm (by simpa using hs) with hd' | hk'
      · rw [hd] at hd'
        cases hd'
      · rw [hk] at hk'
        cases hk'
  · have hold := h.kickCount
    omega

/-- A critical section lets nobody into the snapshot and leaves the counter of kicks; the loop
stands where it was. -/
theorem setPoint (h : Delivering m mt sessions) {mp : MountPoint}
    (hsnap : ∀ d ∈ mp.snapshot, d ∈ mt.point.snapshot)
    (hkick : mp.stats.kickCount = mt.point.stats.kickCount) :
    Delivering m { mt with point := mp } sessions := by
  refine h.setMount rfl hsnap (.refl _) (fun p hp => hp) ?_ ?_ ?_ ?_ ?_
  · exact fun i x hx hm hin hout => absurd hin hout
  · exact fun i x hx hs => .inl hs
  · exact fun i x hx hk => .inl hk
  · exact fun i x hx hu => .inl hu
  · exact congrArg (· + _) hkick

/-- `Broadcast` loads the snapshot: who is in it has one more broadcast to accept. -/
theorem broadcast (h : Delivering m mt sessions) (hrep : mt.point.Rep)
    (hreg : ∀ d ∈ mt.point.snapshot, Registered sessions m d) (hidle : mt.broadcast = .idle)
    (pkt : RTCMPacket) :
    Delivering m { mt with
      broadcast := .loop pkt mt.point.snapshot
      log := mt.log ++ [(pkt, mt.point.snapshot)] } sessions := by
  -- who registers has been admitted
  have hadm : ∀ d ∈ mt.point.snapshot, Admitted sessions m d := by
    intro d hd
    obtain ⟨x, hx, hc, hm, hr⟩ := hreg d hd
    exact ⟨x, hx, hc, hm, RoverPC.admitted_of_registered hr⟩
  constructor
  · intro e he d hd
    rcases List.mem_append.mp he with he | he
    · exact h.log_known e he d hd
    · obtain rfl := List.mem_singleton.mp he
      exact hadm d hd
  · exact hadm
  · exact hrep.nodup_snapshot
  · intro p hp
    obtain rfl := Option.some.inj hp
    exact ⟨mt.point.snapshot, by simp⟩
  · intro i x hx hm
    obtain ⟨φ, hφ⟩ := h.feed i x hx hm
    have hlogged : ∀ q ∈ x.accepted,
        ∃ snap, (mt.log ++ [(pkt, mt.point.snapshot)])[q.1]? = some (q.2, snap) := by
      intro q hq
      obtain ⟨snap, hs⟩ := hφ.logged q hq
      exact ⟨snap, getElem?_append_of_eq_some hs⟩
    -- with no broadcast in progress an open client has taken all it was there for
    have hlive : x.isDone = false → φ.taken = φ.during := by
      intro hd
      simpa [hidle, BroadcastPC.pending] using hφ.live hd
    by_cases hin : x.client ∈ mt.point.snapshot
    · have hafter := hφ.snapshot hin
      refine ⟨⟨φ.before, φ.during + 1, 0, φ.taken⟩, Nat.le_succ_of_le hφ.taken_le, ?_,
        hφ.accepted, hlogged, fun _ => rfl, fun _ => rfl, fun hd => ?_, nofun⟩
      · rw [List.map_append, hφ.present]
        simp [Feed.present, hafter, hin, List.replicate_succ']
      · have hp : x.client ∈ (BroadcastPC.loop pkt mt.point.snapshot).pending := hin
        rw [if_pos hp, hlive hd]
    · -- it is not: its stay is over, or (with nothing in `during`) has not begun
      refine ⟨⟨φ.before, φ.during, φ.after + 1, φ.taken⟩, hφ.taken_le, ?_, hφ.accepted, hlogged,
        fun hs => absurd hs hin, fun hp => absurd hp hin, fun hd => ?_, nofun⟩
      · rw [List.map_append, hφ.present]
        simp [Feed.present, hin, List.replicate_succ', List.append_assoc]
      · have hp : x.client ∉ (BroadcastPC.loop pkt mt.point.snapshot).pending := hin
        rw [if_neg hp, hlive hd]
        rfl
  · intro i x hx hm hs
    rcases h.slow_done i x hx hm hs with hd | hk
    · exact .inl hd
    · rw [hidle] at hk
      cases hk
  · exact fun i x hx hm hu => nomatch hu
  · have hold := h.kickCount
    rw [hidle] at hold
    exact hold

/-- A session that is in no log and no snapshot has all broadcasts so far before it. -/
theorem feed_of_unknown (h : Delivering m mt sessions) (mp : MountPoint) {y : Session}
    (hunknown : ∀ d, Admitted sessions m d → d ≠ y.client) (hacc : y.accepted = []) :
    ∃ φ : Feed, φ.Tracks { mt with point := mp } y := by
  have hall : mt.log.map (fun e => decide (y.client ∈ e.2)) =
      List.replicate mt.log.length false := by
    refine List.eq_replicate_iff.mpr ⟨List.length_map _, fun b hb => ?_⟩
    obtain ⟨e, he, rfl⟩ := List.mem_map.mp hb
    exact decide_eq_false fun hmem => hunknown _ (h.log_known e he _ hmem) rfl
  refine ⟨⟨mt.log.length, 0, 0, 0⟩, Nat.le_refl 0, ?_, ?_, ?_, fun _ => rfl, fun _ => rfl, ?_, ?_⟩
  · exact hall.trans (by simp [Feed.present])
  · simp [hacc, Feed.accepted]
  · simp [hacc]
  · intro _
    -- nor does the broadcast in progress
    have hp : y.client ∉ mt.broadcast.pending := fun hp => hunknown _ (h.pending_known _ hp) rfl
    show 0 + (if y.client ∈ mt.broadcast.pending then 1 else 0) = 0
    rw [if_neg hp]
  · intro hs
    exact absurd rfl (hunknown _ (h.pending_known _ (BroadcastPC.mem_pending_of_selecting hs)))

/-- A new session is in no log and no snapshot. -/
theorem connect (h : Delivering m mt sessions) (mount : ℕ) (id : Bytes) (userID : ℤ) :
    Delivering m mt (sessions ++ [newSession sessions.length mount id userID]) := by
  -- clients in the log refer to older sessions
  have hlt : ∀ d, Admitted sessions m d → d.ref < sessions.length := by
    rintro d ⟨x, hx, -⟩
    exact (List.getElem?_eq_some_iff.mp hx).1
  have hadm : ∀ d, Admitted sessions m d →
      Admitted (sessions ++ [newSession sessions.length mount id userID]) m d := by
    intro d hd
    obtain ⟨x, hx, hrest⟩ := hd
    exact ⟨x, by rw [List.getElem?_append_left (hlt d ⟨x, hx, hrest⟩)]; exact hx, hrest⟩
  have hcases : ∀ (i : ℕ) (x : Session),
      (sessions ++ [newSession sessions.length mount id userID])[i]? = some x →
        sessions[i]? = some x ∨ x = newSession sessions.length mount id userID :=
    fun i x hx => (getElem?_snoc_eq_some hx).imp_right And.right
  constructor
  · exact fun e he d hd => hadm d (h.log_known e he d hd)
  · exact fun d hd => hadm d (h.pending_known d hd)
  · exact h.pending_nodup
  · exact h.current
  · intro i x hx hm
    rcases hcases i x hx with hx | rfl
    · exact h.feed i x hx hm
    · refine h.feed_of_unknown mt.point (fun d hd heq => ?_) rfl
      exact absurd (hlt d hd) (by rw [heq]; exact Nat.lt_irrefl _)
  · intro i x hx hm hs
    rcases hcases i x hx with hx | rfl
    · exact h.slow_done i x hx hm hs
    · cases hs
  · intro i x hx hm hu
    rcases hcases i x hx with hx | rfl
    · exact h.unmarked i x hx hm hu
    · rfl
  · rw [List.countP_append]
    simpa [newSession] using h.kickCount

/-- A session that is not admitted is none of those that the broadcasts know. -/
theorem ref_ne (hx : sessions[i]? = some x) (hpc : x.pc.admitted = false) {d : Client}
    (hd : Admitted sessions m d) : d.ref ≠ i := by
  rintro rfl
  obtain ⟨y, hy, -, -, ha⟩ := hd
  rw [Option.some.inj (hy.symm.trans hx), hpc] at ha
  cases ha

/-- A client that registers starts at the end of the log: it has no part in what is there. -/
theorem addClient (h : Delivering m mt sessions) (hrep : mt.point.Rep)
    (href : ∀ (i : ℕ) (x : Session), sessions[i]? = some x → x.client.ref = i)
    (hx : sessions[i]? = some x) (hpc : x.pc = .addClient) (hdel : x.Delivered) {c : Client}
    {mp : MountPoint} {ord : RangeOrder Client} (hc : newClient x mt.point = some c)
    (hadd : mt.point.addClient ord c = .ok mp) :
    Delivering m { mt with point := mp } (sessions.set i { x with client := c, pc := .add }) := by
  have hun : x.pc.admitted = false := by rw [hpc]; rfl
  have hcref : c.ref = i := (newClient_eq_some hc).1.trans (href i x hx)
  obtain ⟨hacc, hslow⟩ := hdel.fresh hun
  have hadm : ∀ d, Admitted sessions m d →
      Admitted (sessions.set i { x with client := c, pc := .add }) m d := fun d hd =>
    exists_getElem?_set hx hd fun hi => absurd hi (ref_ne hx hun hd)
  constructor
  · exact fun e he d hd => hadm d (h.log_known e he d hd)
  · exact fun d hd => hadm d (h.pending_known d hd)
  · exact h.pending_nodup
  · exact h.current
  · intro j y hy hm
    rcases getElem?_set_eq_some hy with ⟨rfl, rfl⟩ | ⟨hne, hy⟩
    · -- the new client has been in no snapshot: its feed starts here
      refine h.feed_of_unknown mp (fun d hd heq => ref_ne hx hun hd ?_) hacc
      exact heq ▸ hcref
    · obtain ⟨φ, hφ⟩ := h.feed j y hy hm
      refine ⟨φ, hφ.taken_le, hφ.present, hφ.accepted, hφ.logged, fun hs => ?_, hφ.pending,
        hφ.live, hφ.selecting⟩
      rcases hrep.mem_snapshot_addClient hadd hs with hyc | hs
      · exact absurd ((href j y hy).symm.trans ((congrArg Client.ref hyc).trans hcref)) hne
      · exact hφ.snapshot hs
  · intro j y hy hm hs
    rcases getElem?_set_eq_some hy with ⟨rfl, rfl⟩ | ⟨-, hy⟩
    · rw [hslow] at hs
      cases hs
    · exact h.slow_done j y hy hm hs
  · intro j y hy hm hu
    rcases getElem?_set_eq_some hy with ⟨rfl, rfl⟩ | ⟨-, hy⟩
    · exact hslow
    · exact h.unmarked j y hy hm hu
  · have hkick := MountPoint.kickCount_apply (m := mt.point) (.addClient ord c)
    simp only [MountPoint.apply, hadd] at hkick
    have hcount := countP_set (b := { x with client := c, pc := .add })
      (fun x : Session => x.mount == m && x.slow) hx
    have hold := h.kickCount
    show mp.stats.kickCount = _ + (mt.broadcast.ahead.toNat : ℤ)
    rw [hkick]
    dsimp only at hcount
    omega

/-- The session a broadcast is at. -/
theorem current_session (h : Delivering m mt sessions) {c : Client}
    (hc : c ∈ mt.broadcast.pending) (hx : sessions[c.ref]? = some x) :
    x.client = c ∧ x.mount = m ∧ x.pc.admitted = true := by
  obtain ⟨y, hy, hrest⟩ := h.pending_known c hc
  obtain rfl := Option.some.inj (hy.symm.trans hx)
  exact hrest

/-- The client that the broadcast is at takes the packet, which is the last of the log. -/
theorem accept (h : Delivering m mt sessions)
    (href : ∀ (i : ℕ) (x : Session), sessions[i]? = some x → x.client.ref = i) {pkt : RTCMPacket}
    {c : Client} {todo : List Client} (hpc : mt.broadcast = .select pkt c todo)
    (hx : sessions[c.ref]? = some x) (hacc : Session.Accepts (mt.log.length - 1) pkt x x') :
    Delivering m { mt with broadcast := .loop pkt todo } (sessions.set c.ref x') := by
  have hmem : c ∈ mt.broadcast.pending := by simp [hpc, BroadcastPC.pending]
  obtain ⟨hclient, hmount, hadmx⟩ := h.current_session hmem hx
  obtain ⟨hnot, hnodup⟩ : c ∉ todo ∧ todo.Nodup := by
    have := h.pending_nodup
    -- a list without repetition: the client is not served twice
    rw [hpc] at this
    exact List.nodup_cons.mp this
  have hadm : ∀ d, Admitted sessions m d → Admitted (sessions.set c.ref x') m d := fun d hd =>
    exists_getElem?_set hx hd fun _ ⟨h₁, h₂, h₃⟩ =>
      ⟨hacc.client.trans h₁, hacc.mount.trans h₂, hacc.admitted.trans h₃⟩
  constructor
  · exact fun e he d hd => hadm d (h.log_known e he d hd)
  · intro d hd
    refine hadm d (h.pending_known d ?_)
    rw [hpc]
    exact List.mem_cons_of_mem c hd
  · exact hnodup
  · intro p hp
    refine h.current p ?_
    rw [hpc]
    exact hp
  · intro j y hy hm
    rcases getElem?_set_eq_some hy with ⟨rfl, rfl⟩ | ⟨hne, hy⟩
    · obtain ⟨φ, hφ⟩ := h.feed c.ref x hx hmount
      obtain ⟨snap, hlast⟩ := h.current pkt (by rw [hpc]; rfl)
      subst hclient
      exact ⟨_, hφ.accept hpc hnot hlast hacc⟩
    · obtain ⟨φ, hφ⟩ := h.feed j y hy hm
      refine ⟨φ, hφ.setBroadcast ?_ rfl⟩
      have hyc : y.client ≠ c := fun heq => hne ((href j y hy).symm.trans (congrArg _ heq))
      rw [hpc]
      simp [BroadcastPC.pending, hyc]
  · intro j y hy hm hs
    rcases getElem?_set_eq_some hy with ⟨rfl, rfl⟩ | ⟨-, hy⟩
    · rcases h.slow_done c.ref x hx hmount (hacc.slow.symm.trans hs) with hd | hk
      · exact .inl (hacc.isDone.trans hd)
      · rw [hpc] at hk
        cases hk
    · rcases h.slow_done j y hy hm hs with hd | hk
      · exact .inl hd
      · rw [hpc] at hk
        cases hk
  · exact fun j y hy hm hu => nomatch hu
  · have hcount := countP_set (b := x') (fun x : Session => x.mount == m && x.slow) hx
    have hold := h.kickCount
    rw [hpc] at hold
    rw [hacc.mount, hacc.slow] at hcount
    show mt.point.stats.kickCount = _ + ((BroadcastPC.loop pkt todo).ahead.toNat : ℤ)
    simp only [BroadcastPC.ahead] at hold ⊢
    omega

/-- A client whose queue is full is marked once, and is kicked next; `KickCount` has been raised
before. -/
theorem markSlow (h : Delivering m mt sessions) {pkt : RTCMPacket} {c : Client}
    {todo : List Client} (hpc : mt.broadcast = .markSlow pkt c todo)
    (hx : sessions[c.ref]? = some x) (hslow : x.slow = false) :
    Delivering m { mt with broadcast := .kick pkt c todo }
      (sessions.set c.ref { x with slow := true }) := by
  have hmem : c ∈ mt.broadcast.pending := by simp [hpc, BroadcastPC.pending]
  obtain ⟨hclient, hmount, -⟩ := h.current_session hmem hx
  have hadm : ∀ d, Admitted sessions m d →
      Admitted (sessions.set c.ref { x with slow := true }) m d := fun d hd =>
    exists_getElem?_set hx hd fun _ hp => hp
  constructor
  · exact fun e he d hd => hadm d (h.log_known e he d hd)
  · intro d hd
    refine hadm d (h.pending_known d ?_)
    rw [hpc]
    exact hd
  · have := h.pending_nodup
    rw [hpc] at this
    exact this
  · intro p hp
    refine h.current p ?_
    rw [hpc]
    exact hp
  · intro j y hy hm
    have hpend : ∀ d, d ∈ (BroadcastPC.kick pkt c todo).pending ↔ d ∈ mt.broadcast.pending := by
      intro d
      rw [hpc]
      rfl
    rcases getElem?_set_eq_some hy with ⟨rfl, rfl⟩ | ⟨-, hy⟩
    · obtain ⟨φ, hφ⟩ := h.feed c.ref x hx hmount
      exact ⟨φ, (hφ.setBroadcast (hpend _) rfl).keeps rfl rfl id⟩
    · obtain ⟨φ, hφ⟩ := h.feed j y hy hm
      exact ⟨φ, hφ.setBroadcast (hpend _) rfl⟩
  · intro j y hy hm hs
    rcases getElem?_set_eq_some hy with ⟨rfl, rfl⟩ | ⟨-, hy⟩
    · exact .inr (congrArg some hclient.symm)
    · rcases h.slow_done j y hy hm hs with hd | hk
      · exact .inl hd
      · rw [hpc] at hk
        cases hk
  · exact fun j y hy hm hu => nomatch hu
  · -- the count catches up with the flag
    have hcount := countP_set (b := { x with slow := true })
      (fun x : Session => x.mount == m && x.slow) hx
    have hold := h.kickCount
    rw [hpc] at hold
    have hbefore : (x.mount == m && x.slow) = false := by rw [hslow, Bool.and_false]
    have hafter : (x.mount == m && true) = true := by rw [hmount, beq_self_eq_true, Bool.and_self]
    dsimp only at hcount
    rw [hbefore, hafter, Bool.toNat_false, Bool.toNat_true] at hcount
    show mt.point.stats.kickCount = _ + ((BroadcastPC.kick pkt c todo).ahead.toNat : ℤ)
    simp only [BroadcastPC.ahead, Bool.toNat_false, Bool.toNat_true] at hold ⊢
    omega

end Delivering

/-- The sessions and the mountpoints of a server. -/
structure Serving (s : RoverState) : Prop where
  known : Known s.mounts s.sessions
  delivered : ∀ x ∈ s.sessions, x.Delivered
  delivering : ∀ (m : ℕ) (mt : Mount), s.mounts[m]? = some mt → Delivering m mt s.sessions

namespace Serving

variable {s s' : RoverState} {a : RoverStep} {i m : ℕ} {x x' : Session} {mt mt' : Mount}

/-- What every mountpoint delivers after a step that moved one of them. -/
theorem delivering_set {mounts : List Mount} {sessions sessions' : List Session}
    (h : ∀ (m : ℕ) (mt : Mount), mounts[m]? = some mt → Delivering m mt sessions)
    (hother : ∀ (m' : ℕ) (mt' : Mount), m' ≠ m → Delivering m' mt' sessions →
      Delivering m' mt' sessions') (hself : Delivering m mt' sessions') :
    ∀ (m' : ℕ) (y : Mount), (mounts.set m mt')[m']? = some y → Delivering m' y sessions' := by
  intro m' y hy
  rcases getElem?_set_eq_some hy with ⟨rfl, rfl⟩ | ⟨hne, hy⟩
  · exact hself
  · exact hother m' y hne (h m' y hy)

theorem mem (hx : s.sessions[i]? = some x) : x ∈ s.sessions := List.mem_of_getElem? hx

/-- A session moves in a way that no mountpoint notices. -/
theorem setSession (h : Serving s) (he : RoverEffect s a s') (hx : s.sessions[i]? = some x)
    (hm : s'.mounts = s.mounts) (hs : s'.sessions = s.sessions.set i x')
    (hk : ∀ m, x.KeepsFor m x') (hdel : x'.Delivered) : Serving s' where
  known := h.known.effect he
  delivered := hs ▸ forall_mem_set h.delivered hdel
  delivering m mt hmt := hs ▸ (h.delivering m mt (hm ▸ hmt)).setSession hx (hk m)

/-- A mountpoint moves and no session does. -/
theorem setMount (h : Serving s) (he : RoverEffect s a s') (hm : s'.mounts = s.mounts.set m mt')
    (hs : s'.sessions = s.sessions) (hself : Delivering m mt' s.sessions) : Serving s' where
  known := h.known.effect he
  delivered := hs ▸ h.delivered
  delivering := by
    rw [hm, hs]
    exact delivering_set h.delivering (fun _ _ _ hd => hd) hself

/-- A mountpoint and one of its sessions move. -/
theorem setBoth (h : Serving s) (he : RoverEffect s a s') (hx : s.sessions[i]? = some x)
    (hm : s'.mounts = s.mounts.set m mt') (hs : s'.sessions = s.sessions.set i x')
    (hother : ∀ m', m' ≠ m → x.KeepsFor m' x') (hself : Delivering m mt' (s.sessions.set i x'))
    (hdel : x'.Delivered) : Serving s' where
  known := h.known.effect he
  delivered := hs ▸ forall_mem_set h.delivered hdel
  delivering := by
    rw [hm, hs]
    exact delivering_set h.delivering (fun m' _ hne hd => hd.setSession hx (hother m' hne)) hself

/-- The broadcast on a mountpoint moves on within its turn for one client. -/
theorem turn (h : Serving s) (hmt : s.mounts[m]? = some mt) {pc pc' : BroadcastPC}
    (hpc : mt.broadcast = pc) (hpend : pc'.pending = pc.pending)
    (hpkt : ∀ p, pc'.packet = some p → pc.packet = some p) (hsel : pc'.selecting = none)
    (hunm : pc'.unmarked = pc.unmarked) (hkick : pc.kicking = none) {mp : MountPoint}
    (hsnap : mp.snapshot = mt.point.snapshot)
    (hcount : mp.stats.kickCount + pc.ahead.toNat =
      mt.point.stats.kickCount + pc'.ahead.toNat) :
    Delivering m { mt with point := mp, broadcast := pc' } s.sessions := by
  subst hpc
  refine (h.delivering m mt hmt).setMount rfl ?_ ?_ hpkt ?_ ?_ ?_ ?_ hcount
  · exact fun d hd => hsnap ▸ hd
  · exact hpend ▸ List.Sublist.refl _
  · exact fun i x hx hm hin hout => absurd (hpend ▸ hin) hout
  · intro i x hx hs
    rw [show BroadcastPC.selecting _ = none from hsel] at hs
    cases hs
  · intro i x hx hk
    rw [hkick] at hk
    cases hk
  · exact fun i x hx hu => .inl (hunm ▸ hu)

theorem init {limiter : GlobalLimiter} {mounts : List Mount} (h : ∀ mt ∈ mounts, mt.Fresh) :
    Serving ⟨limiter, mounts, [], []⟩ where
  known := .init h
  delivered x hx := by simp at hx
  delivering m mt hmt := by
    obtain ⟨_, _, _, _, _, _, rfl⟩ := h mt (List.mem_of_getElem? hmt)
    constructor
    · exact fun e he => by simp at he
    · exact fun d hd => by simp [BroadcastPC.pending] at hd
    · exact List.nodup_nil
    · exact fun p hp => nomatch hp
    · exact fun i x hx => by simp at hx
    · exact fun i x hx => by simp at hx
    · exact fun i x hx => by simp at hx
    · rfl

/-- The loop leaves a client that is `Done`. -/
theorem skip (h : Serving s) (hmt : s.mounts[m]? = some mt) {pc : BroadcastPC} {pkt : RTCMPacket}
    {c : Client} {todo : List Client} (hpc : mt.broadcast = pc) (hpend : pc.pending = c :: todo)
    (hpkt : pc.packet = some pkt) (hahead : pc.ahead = false)
    (hkicking : ∀ d, pc.kicking = some d → d = c) (hx : s.sessions[c.ref]? = some x)
    (hdone : x.isDone = true) :
    Delivering m { mt with broadcast := .loop pkt todo } s.sessions := by
  subst hpc
  -- the session of a client `c` is the one that is done
  have hsession : ∀ (i : ℕ) (y : Session), s.sessions[i]? = some y → y.client = c →
      y.isDone = true := by
    rintro i y hy rfl
    rw [h.known.ref i y hy] at hx
    exact (Option.some.inj (hx.symm.trans hy)) ▸ hdone
  refine (h.delivering m mt hmt).setMount rfl (fun d hd => hd) ?_ ?_ ?_ ?_ ?_ ?_ ?_
  · rw [hpend]
    exact List.sublist_cons_self c todo
  · exact fun p hp => hpkt.trans hp
  · intro i y hy hm hin hout
    rw [hpend] at hin
    rcases List.mem_cons.mp hin with hyc | hin
    · exact hsession i y hy hyc
    · exact absurd hin hout
  · exact fun i y hy hs => nomatch hs
  · exact fun i y hy hk => .inr (hsession i y hy (hkicking _ hk))
  · exact fun i y hy hu => nomatch hu
  · show mt.point.stats.kickCount + _ = _ + ((BroadcastPC.loop pkt todo).ahead.toNat : ℤ)
    rw [hahead]
    rfl

/-- The loop enters its turn for a client whose `Done` is open. -/
theorem enter (h : Serving s) (hmt : s.mounts[m]? = some mt) {pkt : RTCMPacket} {c : Client}
    {todo : List Client} (hpc : mt.broadcast = .loop pkt (c :: todo))
    (hx : s.sessions[c.ref]? = some x) (hdone : x.isDone = false) :
    Delivering m { mt with broadcast := .select pkt c todo } s.sessions := by
  have hsession : ∀ (i : ℕ) (y : Session), s.sessions[i]? = some y → some c = some y.client →
      y.isDone = false := by
    intro i y hy hc
    obtain rfl := Option.some.inj hc
    rw [h.known.ref i y hy] at hx
    exact (Option.some.inj (hx.symm.trans hy)) ▸ hdone
  refine (h.delivering m mt hmt).setMount rfl (fun d hd => hd) ?_ ?_ ?_ ?_ ?_ ?_ ?_
  · rw [hpc]
    exact .refl _
  · rw [hpc]
    exact fun p hp => hp
  · rw [hpc]
    exact fun i y hy hm hin hout => absurd hin hout
  · intro i y hy hs
    refine .inr ⟨?_, hsession i y hy hs⟩
    rw [hpc, ← Option.some.inj hs]
    exact List.mem_cons_self
  · intro i y hy hk
    rw [hpc] at hk
    cases hk
  · intro i y hy hu
    refine .inr ⟨hsession i y hy hu, ?_⟩
    rw [hpc]
    rfl
  · rw [hpc]
    rfl

/-- Every effect keeps the server serving. -/
theorem effect (h : Serving s) (he : RoverEffect s a s') : Serving s' := by
  have he' := he
  cases he with
  | connect mount id userID =>
    refine ⟨h.known.effect he', forall_mem_snoc h.delivered (Session.newSession_delivered ..), ?_⟩
    exact fun m mt hmt => (h.delivering m mt hmt).connect mount id userID
  | moves hx hmove =>
    exact h.setSession he' hx rfl rfl hmove.keepsFor (hmove.delivered (h.delivered _ (mem hx)))
  | teardowns t => exact ⟨h.known, h.delivered, h.delivering⟩
  | addClient ha hx hmt hpc hc hadd =>
    have hdel := h.delivered _ (mem hx)
    refine h.setBoth he' hx rfl rfl (fun m' hne => ?_) ?_ (hdel.addClient hpc _)
    · refine .of_ne hne.symm rfl fun hadm => ?_
      rw [hpc] at hadm
      cases hadm
    · exact (h.delivering _ _ hmt).addClient (h.known.rep _ _ hmt) h.known.ref hx hpc hdel hc hadd
  | add hx hpc =>
    refine h.setSession he' hx rfl rfl (Session.keepsFor_setPC _ rfl) ?_
    exact (h.delivered _ (mem hx)).setPC (by rw [hpc]; rfl) rfl (fun _ => by rw [hpc]; rfl) rfl
  | @removeClient i x mt ord hx hmt hpc =>
    have hkeep : ∀ m, x.KeepsFor m { x with pc := .release } := x.keepsFor_setPC rfl
    have hop : ∀ ord' c, CriticalSection.removeClient ord x.client.id ≠ .addClient ord' c := nofun
    refine h.setBoth he' hx rfl rfl (fun m' _ => hkeep m') ?_ ?_
    · refine ((h.delivering _ _ hmt).setSession hx (hkeep _)).setPoint (fun d hd => ?_) ?_
      · exact (h.known.rep _ _ hmt).mem_snapshot_apply hop hd
      · exact MountPoint.kickCount_apply (.removeClient ord x.client.id)
    · exact (h.delivered _ (mem hx)).setPC (by rw [hpc]; rfl) rfl nofun rfl
  | release hx hpc =>
    refine h.setSession he' hx rfl rfl (Session.keepsFor_setPC _ rfl) ?_
    exact (h.delivered _ (mem hx)).setPC (by rw [hpc]; rfl) rfl nofun rfl
  | @operate m mt op t hmt hop =>
    refine h.setMount he' rfl rfl ((h.delivering m mt hmt).setPoint (fun d hd => ?_) ?_)
    · exact (h.known.rep _ _ hmt).mem_snapshot_apply hop hd
    · exact MountPoint.kickCount_apply op
  | broadcast pkt hmt hpc =>
    refine h.setMount he' rfl rfl ?_
    exact (h.delivering _ _ hmt).broadcast (h.known.rep _ _ hmt) (h.known.snapshot _ _ hmt) hpc pkt
  | finish hmt hpc =>
    refine h.setMount he' rfl rfl ?_
    refine h.turn hmt hpc ?_ (fun _ hp => ?_) ?_ ?_ ?_ ?_ ?_
    any_goals rfl
    cases hp
  | enter hmt hpc hx hdone => exact h.setMount he' rfl rfl (h.enter hmt hpc hx hdone)
  | @skip m mt pkt c todo x hmt hpc hx hdone =>
    refine h.setMount he' rfl rfl ?_
    rcases hpc with hpc | hpc | hpc | ⟨hpc, hslow⟩
    · exact h.skip hmt hpc rfl rfl rfl nofun hx (hdone.resolve_left (by rw [hpc]; nofun))
    · exact h.skip hmt hpc rfl rfl rfl nofun hx (hdone.resolve_left (by rw [hpc]; nofun))
    · exact h.skip hmt hpc rfl rfl rfl (fun d hd => (Option.some.inj hd).symm) hx
        (hdone.resolve_left (by rw [hpc]; nofun))
    · have hmem : c ∈ mt.broadcast.pending := by
        rw [hpc]
        exact List.mem_cons_self
      obtain ⟨hclient, hmount, -⟩ := (h.delivering m mt hmt).current_session hmem hx
      have hclear := (h.delivering m mt hmt).unmarked c.ref x hx hmount (by rw [hpc, hclient]; rfl)
      exact absurd (hslow.symm.trans hclear) (by decide)
  | @accept m mt pkt c todo x x' hmt hpc hx hacc =>
    have hmem : c ∈ mt.broadcast.pending := by
      rw [hpc]
      exact List.mem_cons_self
    obtain ⟨-, hmount, hadm⟩ := (h.delivering _ _ hmt).current_session hmem hx
    refine h.setBoth he' hx rfl rfl (fun m' hne => ?_) ?_ ?_
    · refine .of_ne (hmount ▸ hne.symm) hacc.mount fun ha => ?_
      exact ⟨hacc.client, hacc.admitted.trans ha⟩
    · exact (h.delivering _ _ hmt).accept h.known.ref hpc hx hacc
    · exact hacc.delivered hadm (h.delivered _ (mem hx))
  | refuse hmt hpc =>
    refine h.setMount he' rfl rfl ?_
    refine h.turn hmt hpc ?_ (fun _ hp => ?_) ?_ ?_ ?_ ?_ ?_
    any_goals rfl
    exact hp
  | slowClients n hmt hpc =>
    refine h.setMount he' rfl rfl ?_
    refine h.turn hmt hpc ?_ (fun _ hp => ?_) ?_ ?_ ?_ ?_ ?_
    any_goals rfl
    exact hp
  | kickCount hmt hpc =>
    -- the counter goes first, the flag follows in the next step
    refine h.setMount he' rfl rfl ?_
    refine h.turn hmt hpc ?_ (fun _ hp => ?_) ?_ ?_ ?_ ?_ ?_
    any_goals rfl
    · exact hp
    · simp [BroadcastPC.ahead]
  | @markSlow m mt pkt c todo x hmt hpc hx hslow =>
    have hmem : c ∈ mt.broadcast.pending := by
      rw [hpc]
      exact List.mem_cons_self
    obtain ⟨-, hmount, hadm⟩ := (h.delivering _ _ hmt).current_session hmem hx
    refine h.setBoth he' hx rfl rfl (fun m' hne => ?_) ?_ ?_
    · exact .of_ne (hmount ▸ hne.symm) rfl fun ha => ⟨rfl, ha⟩
    · exact (h.delivering _ _ hmt).markSlow hpc hx hslow
    · exact (h.delivered _ (mem hx)).setSlow hadm

end Serving

/-- **Gap-free in-order delivery.** In every reachable state, and for every session of a
mountpoint: the packets accepted into its queue are one contiguous block of the broadcast
sequence, from the first broadcast whose snapshot has the client; a client that misses a later
one while in the snapshot is `Done`; and the bytes written to the rover are a prefix of the
response and that block. `KickCount` is the number of clients whose slow flag is set, and one
more between the counter and the flag. -/
theorem gapFree_delivery {maxClients : ℤ} {s : RoverState}
    (h : (roverSystem maxClients).Reachable s) {m : ℕ} {mt : Mount}
    (hmt : s.mounts[m]? = some mt) :
    (∀ x ∈ s.sessions, x.mount = m → GapFree mt x ∧
      (x.pc.admitted = true → x.wire <+: icyOK ++ Session.bytesOf x.packets)) ∧
    mt.point.stats.kickCount =
      s.sessions.countP (fun x => x.mount == m && x.slow) + mt.broadcast.ahead.toNat := by
  have hserving : Serving s := by
    refine h.invariant ?_ fun s a s' _ hs hstep => hs.effect (step_effect hstep)
    rintro s ⟨mounts, hfresh, rfl⟩
    exact .init hfresh
  refine ⟨fun x hx hm => ?_, (hserving.delivering m mt hmt).kickCount⟩
  obtain ⟨i, hi⟩ := List.getElem?_of_mem hx
  obtain ⟨φ, hφ⟩ := (hserving.delivering m mt hmt).feed i x hi hm
  exact ⟨hφ.gapFree, (hserving.delivered x hx).on_wire⟩

/-- A rover with a queue of two packets joins, takes a packet, and misses the fourth one. -/
def slowRover : List RoverStep :=
  let handler : RoverStep := .handler 0 .stored .ok
  let loop (case : LoopCase) : RoverStep := .writeLoop 0 case .stored .ok
  let deliver (case : SendCase) : RoverStep := .deliver 0 case
  let accepted := [deliver .writeChan, deliver .writeChan, deliver .writeChan]
  [.operate 0 (.setSource ⟨0, ascii "s", 0⟩),
    .operate 0 (.update [] [] true 2 0 0), .connect 0 (ascii "a") 0] ++
  List.replicate 6 handler ++ [.broadcast 0 ⟨[1]⟩] ++ accepted ++
  [loop .writeChan, loop .writeChan, .broadcast 0 ⟨[2]⟩] ++ accepted ++
  [.broadcast 0 ⟨[3]⟩] ++ accepted ++ [.broadcast 0 ⟨[4]⟩] ++
  List.replicate 6 (deliver .default) ++ [.closeConn 0, deliver .done]

theorem gapFree_delivery_slowRover :
    ∃ s mt, (roverSystem 8).run (oneMount 8) slowRover = some s ∧ s.mounts[0]? = some mt ∧
      (s.sessions.map Session.packets = [[⟨[1]⟩, ⟨[2]⟩, ⟨[3]⟩]] ∧
        mt.point.stats.kickCount = 1) ∧
      (∀ x ∈ s.sessions, x.mount = 0 → GapFree mt x ∧
        (x.pc.admitted = true → x.wire <+: icyOK ++ Session.bytesOf x.packets)) ∧
      mt.point.stats.kickCount =
        s.sessions.countP (fun x => x.mount == 0 && x.slow) + mt.broadcast.ahead.toNat := by
  obtain ⟨s, mt, hs, hmt, hrun⟩ : ∃ s mt, (roverSystem 8).run (oneMount 8) slowRover = some s ∧
      s.mounts[0]? = some mt ∧ s.sessions.map Session.packets = [[⟨[1]⟩, ⟨[2]⟩, ⟨[3]⟩]] ∧
        mt.point.stats.kickCount = 1 := ⟨_, _, rfl, rfl, rfl, rfl⟩
  exact ⟨s, mt, hs, hmt, hrun, gapFree_delivery (.of_run _ (oneMount_init 8) hs) hmt⟩

end NtripCaster
