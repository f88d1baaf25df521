import NtripCaster.Mountpoint.Representation

/-!
# The client limit of a mountpoint

`AddClient` refuses a client when `MaxClients` is positive and reached. `UpdateMountPoint` changes
`MaxClients` at any time, and does not kick clients that are then too many.

## Main definitions

* `KeepsLimit`: the critical sections that leave `MaxClients` at a value

## Main results

* `MountPoint.len_apply_le`: the clients become more only below the limit
* `client_limit`: the limit over runs in which it is raised and lowered
-/

namespace NtripCaster

open Transition

/-- After the critical section `MaxClients` is `k`. -/
abbrev KeepsLimit (k : ℤ) (m : MountPoint) (op : CriticalSection) : Prop :=
  (m.apply op).maxClients = k

namespace MountPoint

variable {m : MountPoint}

/-- `AddClient` registers a client if the limit is not positive or not reached. -/
theorem addClient_ok {m' : MountPoint} {ord : RangeOrder Client} {c : Client}
    (h : m.addClient ord c = .ok m') :
    (m.maxClients ≤ 0 ∨ m.clientsByID.len < m.maxClients) ∧ m'.maxClients = m.maxClients ∧
      m'.clientsByID = m.clientsByID.insert c.id c := by
  unfold addClient at h
  split_ifs at h
  obtain rfl := Except.ok.inj h
  exact ⟨by omega, rfl, rfl⟩

theorem addClient_ok_iff (ord : RangeOrder Client) (c : Client) :
    (∃ m', m.addClient ord c = .ok m' ∧ m'.clientsByID.lookup c.id = some c) ↔
      m.maxClients ≤ 0 ∨ m.clientsByID.len < m.maxClients := by
  constructor
  · rintro ⟨m', hadd, -⟩
    exact (addClient_ok hadd).1
  · intro hroom
    refine ⟨_, if_neg (by omega), ?_⟩
    exact AList.lookup_insert _

/-- A refused client leaves the mountpoint as it is. -/
theorem apply_addClient_of_error {ord : RangeOrder Client} {c : Client} {e : AddClientError}
    (h : m.addClient ord c = .error e) : m.apply (.addClient ord c) = m := by
  rw [apply, h]

/-- The clients become more only through `AddClient`, and only below the limit. -/
theorem len_apply_le (m : MountPoint) (op : CriticalSection) :
    (m.apply op).clientsByID.len ≤ m.clientsByID.len ∨
      (m.apply op).clientsByID.len ≤ m.clientsByID.len + 1 ∧
        (m.maxClients ≤ 0 ∨ m.clientsByID.len < m.maxClients) ∧
        (m.apply op).maxClients = m.maxClients := by
  by_cases hop : ∃ ord c, op = .addClient ord c
  · obtain ⟨ord, c, rfl⟩ := hop
    rcases hadd : m.addClient ord c with e | m'
    · exact .inl (by rw [apply_addClient_of_error hadd])
    · obtain ⟨hroom, hmax, hmap⟩ := addClient_ok hadd
      have happly : m.apply (.addClient ord c) = m' := by rw [apply, hadd]
      rw [happly, hmap]
      exact .inr ⟨GoMap.len_insert_le _ _ _, hroom, hmax⟩
  · have hop' : ∀ ord c, op ≠ .addClient ord c := fun ord c h => hop ⟨ord, c, h⟩
    exact .inl (GoMap.len_le_of_lookup fun id c hc => lookup_apply hop' hc)

/-- A critical section that leaves a positive limit at `k` keeps the clients below it, or lets
them become fewer. -/
theorem len_apply_le_max {k : ℤ} (hk : 0 < k) {op : CriticalSection} (h : KeepsLimit k m op) :
    ((m.apply op).clientsByID.len : ℤ) ≤ max k m.clientsByID.len := by
  rcases m.len_apply_le op with hle | ⟨hle, hroom, hmax⟩
  · omega
  · rw [h] at hmax
    omega

end MountPoint

theorem len_run_le_max {k : ℤ} (hk : 0 < k) {ops : List CriticalSection} {m m' : MountPoint}
    (h : (mountPointSystem.restrict (KeepsLimit k)).run m ops = some m') :
    (m'.clientsByID.len : ℤ) ≤ max k m.clientsByID.len := by
  induction ops generalizing m with
  | nil =>
    obtain rfl := Option.some.inj h
    omega
  | cons op ops ih =>
    obtain ⟨m₁, hstep, hrun⟩ := Option.bind_eq_some_iff.mp h
    obtain ⟨hkeep, hop⟩ := System.restrict_step_iff.mp hstep
    obtain rfl := Option.some.inj hop
    have hone := MountPoint.len_apply_le_max hk hkeep
    have hrest := ih hrun
    omega

/-- **The client limit**: in every state that the critical sections reach, in whatever order they
come, a client is registered exactly if `MaxClients` is not positive or not reached, and refusing
it changes nothing. While `MaxClients` stays at a positive `k`, the client count does not exceed
the larger of `k` and the count at the start, and it stays at or below `k` once it is there. -/
theorem client_limit {m : MountPoint} (h : mountPointSystem.Reachable m) :
    (∀ ord c, (∃ m', m.addClient ord c = .ok m' ∧ m'.clientsByID.lookup c.id = some c) ↔
      m.maxClients ≤ 0 ∨ m.clientsByID.len < m.maxClients) ∧
    (∀ ord c e, m.addClient ord c = .error e → m.apply (.addClient ord c) = m) ∧
    ∀ k, 0 < k → m.maxClients = k → ∀ ops m',
      (mountPointSystem.restrict (KeepsLimit k)).run m ops = some m' →
        m'.stats.clientCount = m'.clientsByID.len ∧
          m'.stats.clientCount ≤ max k m.stats.clientCount ∧
          (m.stats.clientCount ≤ k → m'.stats.clientCount ≤ k) := by
  refine ⟨MountPoint.addClient_ok_iff, fun ord c e => MountPoint.apply_addClient_of_error,
    fun k hk _ ops m' hrun => ?_⟩
  have hm := (mountPointSystem_rep h).clientCount
  have hm' := (mountPointSystem_rep (h.run (System.run_of_restrict hrun))).clientCount
  have hlen := len_run_le_max hk hrun
  omega

/-- Two clients join, and then the limit is lowered to one. -/
def lowered : MountPoint :=
  [.addClient .stored ⟨1, ascii "a", 3, 64, 0⟩, .addClient .stored ⟨2, ascii "b", 4, 64, 0⟩,
    .update [] (ascii "RTCM3") true 64 3000000000 1].foldl MountPoint.apply
    (newMountPoint (ascii "M") [] (ascii "RTCM3") 64 3000000000 2)

theorem client_limit_lowered :
    (∀ ord c, (∃ m', lowered.addClient ord c = .ok m' ∧ m'.clientsByID.lookup c.id = some c) ↔
      lowered.maxClients ≤ 0 ∨ lowered.clientsByID.len < lowered.maxClients) ∧
    (∀ ord c e, lowered.addClient ord c = .error e →
      lowered.apply (.addClient ord c) = lowered) ∧
    ∀ k, 0 < k → lowered.maxClients = k → ∀ ops m',
      (mountPointSystem.restrict (KeepsLimit k)).run lowered ops = some m' →
        m'.stats.clientCount = m'.clientsByID.len ∧
          m'.stats.clientCount ≤ max k lowered.stats.clientCount ∧
          (lowered.stats.clientCount ≤ k → m'.stats.clientCount ≤ k) :=
  client_limit (.of_run [.addClient .stored ⟨1, ascii "a", 3, 64, 0⟩,
    .addClient .stored ⟨2, ascii "b", 4, 64, 0⟩,
    .update [] (ascii "RTCM3") true 64 3000000000 1] ⟨_, _, _, _, _, _, rfl⟩ rfl)

end NtripCaster
