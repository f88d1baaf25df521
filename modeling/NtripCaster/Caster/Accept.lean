import NtripCaster.Library.Transition
import NtripCaster.Limiter.Limiter

/-!
# The accept loop and the limit per IP address

`Server.ListenAndServe` counts a connection on accept and runs its handler in a goroutine that
releases it when the handler returns. A handler that registers a rover or a source returns at
once and leaves the connection to the session's own goroutine. So the counter bounds the
handlers in progress; it bounds the open connections exactly as long as no connection outlives
its handler.

## Main definitions

* `HandlerPC`, `Conn`: an admitted connection and its handler
* `acceptSystem`: the accept loop, the handlers and the sessions, interleaved
* `ReleasesClosed`: the condition on a step

## Main results

* `AcceptState.Counted.step`: the counters stay the handlers in progress
* `handlers_le_limit`: handlers in progress never exceed the limit
* `openConns_le_limit`: neither do open connections, if only closed ones are released
* `openConns_not_le_limit`: a session outlives its handler
-/

namespace NtripCaster

open Transition

/-- Where the handler goroutine of a connection stands: in `handle` with nothing registered, in
`handle` with a session registered, past `handle` with the deferred `Release` to come, ended. -/
inductive HandlerPC
  | handling
  | serving
  | returned
  | released
  deriving DecidableEq, Repr

/-- An admitted connection. -/
structure Conn where
  ip : Bytes
  handler : HandlerPC
  isOpen : Bool
  deriving DecidableEq, Repr

/-- The limiter, and every connection that has been accepted. -/
structure AcceptState where
  limiter : IPLimiter
  conns : List Conn

/-- A step, with the connection it is about. -/
inductive AcceptStep
  | accept (ip : Bytes)
  | reject (i : ℕ)
  | register (i : ℕ)
  | handled (i : ℕ)
  | close (i : ℕ)
  | release (i : ℕ)

namespace AcceptState

variable (s : AcceptState)

/-- A step of the server. `reject` is any exit of `handle` that closes the connection: a parse
error, the source table, every refusal of a rover or a source. `register` is a successful
`AddClient` or `SetSource`; from then on the session may close the connection at any time. -/
def step : AcceptStep → Option AcceptState
  | .accept ip =>
    let (limiter, ok) := s.limiter.allow ip
    -- a connection that is not allowed is closed by the accept loop itself
    if ok then some ⟨limiter, s.conns ++ [⟨ip, .handling, true⟩]⟩ else some ⟨limiter, s.conns⟩
  | .reject i =>
    match s.conns[i]? with
    | some ⟨ip, .handling, _⟩ => some { s with conns := s.conns.set i ⟨ip, .returned, false⟩ }
    | _ => none
  | .register i =>
    match s.conns[i]? with
    | some ⟨ip, .handling, o⟩ => some { s with conns := s.conns.set i ⟨ip, .serving, o⟩ }
    | _ => none
  | .handled i =>
    match s.conns[i]? with
    | some ⟨ip, .serving, o⟩ => some { s with conns := s.conns.set i ⟨ip, .returned, o⟩ }
    | _ => none
  | .close i =>
    -- the session ends, before or after its handler has returned
    match s.conns[i]? with
    | some ⟨_, .handling, _⟩ => none
    | some ⟨ip, pc, _⟩ => some { s with conns := s.conns.set i ⟨ip, pc, false⟩ }
    | none => none
  | .release i =>
    match s.conns[i]? with
    | some ⟨ip, .returned, o⟩ =>
      some ⟨s.limiter.release ip, s.conns.set i ⟨ip, .released, o⟩⟩
    | _ => none

/-- The open admitted connections from an address. -/
def openConns (ip : Bytes) : ℕ := s.conns.countP fun c => c.ip == ip && c.isOpen

/-- The connections from an address whose handler goroutine has not ended. -/
def handlers (ip : Bytes) : ℕ := s.conns.countP fun c => c.ip == ip && c.handler != .released

end AcceptState

/-- The server from `NewServer` on. -/
def acceptSystem (limit : ℤ) : System AcceptState AcceptStep where
  init s := s = ⟨newIPLimiter limit, []⟩
  step := AcceptState.step

/-- The condition on a step: a connection that is released has been closed. -/
def ReleasesClosed (s : AcceptState) : AcceptStep → Prop
  | .release i => ∀ c ∈ s.conns[i]?, c.isOpen = false
  | _ => True

instance (s : AcceptState) (a : AcceptStep) : Decidable (ReleasesClosed s a) :=
  match a with
  | .release i => inferInstanceAs (Decidable (∀ c ∈ s.conns[i]?, c.isOpen = false))
  | .accept _ | .reject _ | .register _ | .handled _ | .close _ => .isTrue trivial

namespace AcceptState

/-- The counters are the handlers in progress, and stay within the limit. -/
structure Counted (limit : ℤ) (s : AcceptState) : Prop where
  limit_eq : s.limiter.limit = limit
  count_eq : ∀ ip, s.limiter.count ip = s.handlers ip
  count_le : ∀ ip, s.limiter.count ip ≤ limit

variable {limit : ℤ} {s : AcceptState}

theorem handlers_set {i : ℕ} {c : Conn} (hc : s.conns[i]? = some c) (c' : Conn)
    (limiter : IPLimiter) (ip : Bytes) :
    (AcceptState.mk limiter (s.conns.set i c')).handlers ip +
        (c.ip == ip && c.handler != .released).toNat =
      s.handlers ip + (c'.ip == ip && c'.handler != .released).toNat :=
  countP_set (fun c : Conn => c.ip == ip && c.handler != .released) hc

theorem Counted.init (h : 0 < limit) : Counted limit ⟨newIPLimiter limit, []⟩ where
  limit_eq := rfl
  count_eq := by
    intro ip
    simp [newIPLimiter, IPLimiter.count, handlers]
  count_le := by
    intro ip
    have hzero : (newIPLimiter limit).count ip = 0 := by simp [newIPLimiter, IPLimiter.count]
    show (newIPLimiter limit).count ip ≤ limit
    omega

theorem Counted.accept (h : s.Counted limit) {ip : Bytes} (hok : (s.limiter.allow ip).2 = true) :
    Counted limit ⟨(s.limiter.allow ip).1, s.conns ++ [⟨ip, .handling, true⟩]⟩ where
  limit_eq := (IPLimiter.limit_allow ip).trans h.limit_eq
  count_eq := by
    intro ip'
    rw [IPLimiter.count_allow hok]
    have hcount := h.count_eq ip'
    by_cases hip : ip' = ip
    · subst hip
      simp only [handlers, List.countP_append, if_true] at hcount ⊢
      simp [hcount]
    · have hne : ip ≠ ip' := fun heq => hip heq.symm
      simp only [handlers, List.countP_append, if_neg hip] at hcount ⊢
      simp [hcount, hne]
  count_le := by
    intro ip'
    -- the limiter let the connection in below its limit
    have hlt := IPLimiter.allow_eq_true.mp hok
    rw [IPLimiter.count_allow hok]
    rw [h.limit_eq] at hlt
    split
    · omega
    · exact h.count_le ip'

/-- A move of a connection whose handler has not ended and does not end. -/
theorem Counted.move (h : s.Counted limit) {i : ℕ} {c c' : Conn} (hc : s.conns[i]? = some c)
    (hip : c'.ip = c.ip) (hpc : c'.handler = .released ↔ c.handler = .released) :
    Counted limit { s with conns := s.conns.set i c' } where
  limit_eq := h.limit_eq
  count_eq := by
    intro ip
    have hset := handlers_set hc c' s.limiter ip
    have hsame : (c'.handler != .released) = (c.handler != .released) := by
      rw [Bool.eq_iff_iff]
      simp [hpc]
    rw [hip, hsame] at hset
    have hcount := h.count_eq ip
    show s.limiter.count ip = _
    omega
  count_le := h.count_le

/-- The deferred `Release` takes one off the counter of its address. -/
theorem Counted.release (h : s.Counted limit) {i : ℕ} {ip : Bytes} {o : Bool}
    (hc : s.conns[i]? = some ⟨ip, .returned, o⟩) :
    Counted limit ⟨s.limiter.release ip, s.conns.set i ⟨ip, .released, o⟩⟩ := by
  -- what the step does to the count of each address
  have hset := fun ip' => handlers_set hc ⟨ip, .released, o⟩ (s.limiter.release ip) ip'
  have hnew : ∀ ip', (ip == ip' && HandlerPC.released != .released) = false := by simp
  have hold : ∀ ip', (ip == ip' && HandlerPC.returned != .released) = (ip == ip') := by
    simp +decide
  simp only [hnew, hold, Bool.toNat_false] at hset
  have hone : 1 ≤ s.limiter.count ip := by
    have hip := hset ip
    have hcount := h.count_eq ip
    rw [beq_self_eq_true, Bool.toNat_true] at hip
    omega
  constructor
  · exact (IPLimiter.limit_release ip).trans h.limit_eq
  · intro ip'
    have hcount := h.count_eq ip'
    have hip' := hset ip'
    show (s.limiter.release ip).count ip' = _
    rw [IPLimiter.count_release hone]
    by_cases hip : ip' = ip
    · subst hip
      rw [beq_self_eq_true, Bool.toNat_true] at hip'
      rw [if_pos rfl]
      omega
    · rw [beq_false_of_ne fun heq => hip heq.symm, Bool.toNat_false] at hip'
      rw [if_neg hip]
      omega
  · intro ip'
    have hle := h.count_le ip'
    have hle' := h.count_le ip
    show (s.limiter.release ip).count ip' ≤ limit
    rw [IPLimiter.count_release hone]
    split
    · omega
    · exact hle

/-- A connection is counted when it is accepted, and until its handler releases it. -/
theorem Counted.step (h : s.Counted limit) {a : AcceptStep} {s' : AcceptState}
    (hs : s.step a = some s') : s'.Counted limit := by
  cases a with
  | accept ip =>
    simp only [AcceptState.step] at hs
    split at hs
    next hok =>
      obtain rfl := Option.some.inj hs
      exact h.accept hok
    next hok =>
      obtain rfl := Option.some.inj hs
      have hsame : (s.limiter.allow ip).1 = s.limiter := by
        unfold IPLimiter.allow at hok ⊢
        split_ifs at hok ⊢
        · rfl
        · exact absurd rfl hok
      rw [hsame]
      exact h
  | reject i =>
    simp only [AcceptState.step] at hs
    split at hs
    next hc => exact Option.some.inj hs ▸ h.move hc rfl (by simp)
    next => cases hs
  | register i =>
    simp only [AcceptState.step] at hs
    split at hs
    next hc => exact Option.some.inj hs ▸ h.move hc rfl (by simp)
    next => cases hs
  | handled i =>
    simp only [AcceptState.step] at hs
    split at hs
    next hc => exact Option.some.inj hs ▸ h.move hc rfl (by simp)
    next => cases hs
  | close i =>
    simp only [AcceptState.step] at hs
    split at hs
    next => cases hs
    next hc => exact Option.some.inj hs ▸ h.move hc rfl (by simp)
    next => cases hs
  | release i =>
    simp only [AcceptState.step] at hs
    split at hs
    next hc => exact Option.some.inj hs ▸ h.release hc
    next => cases hs

/-- A connection whose handler has ended is closed. -/
def ReleasedClosed (s : AcceptState) : Prop :=
  ∀ c ∈ s.conns, c.handler = .released → c.isOpen = false

/-- Under the condition no handler releases a connection that is open. -/
theorem ReleasedClosed.step (h : s.ReleasedClosed) {a : AcceptStep} {s' : AcceptState}
    (hguard : ReleasesClosed s a) (hs : s.step a = some s') : s'.ReleasedClosed := by
  cases a with
  | accept ip =>
    simp only [AcceptState.step] at hs
    split at hs
    · exact Option.some.inj hs ▸ forall_mem_snoc h (by simp)
    · exact Option.some.inj hs ▸ h
  | reject i =>
    simp only [AcceptState.step] at hs
    split at hs
    · exact Option.some.inj hs ▸ forall_mem_set h fun _ => rfl
    · cases hs
  | register i =>
    simp only [AcceptState.step] at hs
    split at hs
    · exact Option.some.inj hs ▸ forall_mem_set h (by simp)
    · cases hs
  | handled i =>
    simp only [AcceptState.step] at hs
    split at hs
    · exact Option.some.inj hs ▸ forall_mem_set h (by simp)
    · cases hs
  | close i =>
    simp only [AcceptState.step] at hs
    split at hs
    · cases hs
    · exact Option.some.inj hs ▸ forall_mem_set h fun _ => rfl
    · cases hs
  | release i =>
    simp only [AcceptState.step] at hs
    split at hs
    next ip o hc =>
      -- the one step that ends a handler: the condition says that the connection is closed
      have hshut : o = false := hguard ⟨ip, .returned, o⟩ hc
      exact Option.some.inj hs ▸ forall_mem_set h fun _ => hshut
    next => cases hs

end AcceptState

theorem acceptSystem_counted {limit : ℤ} (hlimit : 1 ≤ limit) {s : AcceptState}
    (h : (acceptSystem limit).Reachable s) : s.Counted limit := by
  refine h.invariant ?_ fun s a s' _ hs hstep => hs.step hstep
  rintro s rfl
  exact .init hlimit

/-- What the counter bounds in every run: the handlers in progress. -/
theorem handlers_le_limit {limit : ℤ} (hlimit : 1 ≤ limit) {s : AcceptState}
    (h : (acceptSystem limit).Reachable s) (ip : Bytes) : (s.handlers ip : ℤ) ≤ limit := by
  have hcounted := acceptSystem_counted hlimit h
  rw [← hcounted.count_eq ip]
  exact hcounted.count_le ip

/-- **The limit per IP address** holds in every run that releases a connection only after it has
been closed: the open admitted connections from one address never exceed `max_conn_per_ip`. -/
theorem openConns_le_limit {limit : ℤ} (hlimit : 1 ≤ limit) {s : AcceptState}
    (h : ((acceptSystem limit).restrict ReleasesClosed).Reachable s) (ip : Bytes) :
    (s.openConns ip : ℤ) ≤ limit := by
  have hclosed : s.ReleasedClosed := by
    refine System.Reachable.restrict_invariant ?_ (fun s a s' _ hs hg hst => hs.step hg hst) h
    rintro s rfl
    intro c hc
    simp at hc
  -- an open connection is one whose handler has not ended
  have hle : s.openConns ip ≤ s.handlers ip := by
    refine List.countP_mono_left fun c hc hopen => ?_
    obtain ⟨hip, ho⟩ := Bool.and_eq_true_iff.mp hopen
    refine Bool.and_eq_true_iff.mpr ⟨hip, bne_iff_ne.mpr fun hrel => ?_⟩
    rw [hclosed c hc hrel] at ho
    cases ho
  have := handlers_le_limit hlimit h.of_restrict ip
  omega

/-- A connection that serves a rover until it disconnects, and two more that stay; the handler of
one of them has returned. A fourth one is not allowed. -/
def twoServed : List AcceptStep :=
  [.accept (ascii "10.0.0.1"), .register 0, .accept (ascii "10.0.0.1"), .close 0, .handled 0,
    .release 0, .register 1, .accept (ascii "10.0.0.1"), .register 2, .handled 2,
    .accept (ascii "10.0.0.1")]

theorem openConns_le_limit_twoServed :
    ∃ s, ((acceptSystem 2).restrict ReleasesClosed).run ⟨newIPLimiter 2, []⟩ twoServed = some s ∧
      s.openConns (ascii "10.0.0.1") = 2 ∧ (s.openConns (ascii "10.0.0.1") : ℤ) ≤ 2 := by
  have hlimit : (1 : ℤ) ≤ 2 := by decide
  exact ⟨_, rfl, rfl, openConns_le_limit hlimit (.of_run twoServed rfl rfl) _⟩

/-- With a limit of 1, a rover is served and its handler returns; the next connection from the
same address is admitted while the rover is still connected. -/
theorem openConns_not_le_limit :
    ¬ ∀ limit : ℤ, 1 ≤ limit → ∀ s, (acceptSystem limit).Reachable s →
      ∀ ip, (s.openConns ip : ℤ) ≤ limit := by
  intro h
  let steps : List AcceptStep := [.accept (ascii "10.0.0.1"), .register 0, .handled 0,
    .release 0, .accept (ascii "10.0.0.1")]
  obtain ⟨s, hs, hopen⟩ : ∃ s, (acceptSystem 1).run ⟨newIPLimiter 1, []⟩ steps = some s ∧
      s.openConns (ascii "10.0.0.1") = 2 := ⟨_, rfl, rfl⟩
  have hle := h 1 (by decide) s (.of_run steps rfl hs) (ascii "10.0.0.1")
  rw [hopen] at hle
  exact absurd hle (by decide)

end NtripCaster
