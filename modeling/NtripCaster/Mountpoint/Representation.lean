import NtripCaster.Library.Transition
import NtripCaster.Mountpoint.MountPoint

/-!
# The representation invariant of a mountpoint

A mountpoint keeps its clients three times: in the map, in the broadcast snapshot and in a
counter; and its source twice. The critical sections, in whatever order they come, keep the
copies equal.

## Main definitions

* `CriticalSection`, `mountPointSystem`: the critical sections of a mountpoint, interleaved
* `MountPoint.Rep`: the copies agree

## Main results

* `MountPoint.Rep.apply`: each critical section keeps the copies equal
* `reachable_representation`: they are equal in every reachable state
-/

namespace NtripCaster

open Transition

/-- A critical section of a mountpoint, with its arguments and the orders of its loops. -/
inductive CriticalSection
  | setSource (info : SourceInfo)
  | clearSource (ord : RangeOrder Client) (srcID : Bytes)
  | addClient (ord : RangeOrder Client) (c : Client)
  | removeClient (ord : RangeOrder Client) (id : Bytes)
  | kickClient (ord : RangeOrder Client) (id : Bytes)
  | kickClientsByUser (ord ord' : RangeOrder Client) (userID : ℤ)
  | kickSourceByUser (ord ord' : RangeOrder Client) (userID : ℤ)
  | disconnectAll (ord : RangeOrder Client)
  | update (description format : Bytes) (enabled : Bool)
      (writeQueue writeTimeout maxClients : ℤ)

/-- The mountpoint after a critical section. -/
def MountPoint.apply (m : MountPoint) : CriticalSection → MountPoint
  | .setSource info => (m.setSource info).1
  | .clearSource ord srcID => (m.clearSource ord srcID).1
  | .addClient ord c =>
    match m.addClient ord c with
    | .ok m' => m'
    | .error _ => m
  | .removeClient ord id => m.removeClient ord id
  | .kickClient ord id => (m.kickClient ord id).1
  | .kickClientsByUser ord ord' userID => (m.kickClientsByUser ord ord' userID).1
  | .kickSourceByUser ord ord' userID => (m.kickSourceByUser ord ord' userID).1
  | .disconnectAll ord => (m.disconnectAll ord).1
  | .update description format enabled writeQueue writeTimeout maxClients =>
    m.update description format enabled writeQueue writeTimeout maxClients

/-- What a critical section leaves to do after it has released the mutex. -/
def MountPoint.teardown (m : MountPoint) : CriticalSection → Teardown
  | .clearSource ord srcID => (m.clearSource ord srcID).2
  | .kickClient ord id => (m.kickClient ord id).2
  | .kickClientsByUser ord ord' userID => (m.kickClientsByUser ord ord' userID).2
  | .kickSourceByUser ord ord' userID => (m.kickSourceByUser ord ord' userID).2.1
  | .disconnectAll ord => (m.disconnectAll ord).2
  | .setSource _ | .addClient _ _ | .removeClient _ _ | .update .. => {}

/-- The critical sections of one mountpoint in any order, from `NewMountPoint` on. -/
def mountPointSystem : System MountPoint CriticalSection where
  init m := ∃ name description format writeQueue writeTimeout maxClients,
    m = newMountPoint name description format writeQueue writeTimeout maxClients
  step m op := some (m.apply op)

namespace MountPoint

/-- The copies of a mountpoint's clients and source agree. -/
structure Rep (m : MountPoint) : Prop where
  snapshot_perm : m.snapshot.Perm m.clientsByID.values
  own_id : ∀ id c, m.clientsByID.lookup id = some c → c.id = id
  clientCount : m.stats.clientCount = m.clientsByID.len
  sourceOnline : m.stats.sourceOnline = if m.source.isSome then 1 else 0

variable {m : MountPoint}

theorem Rep.mem_snapshot (h : m.Rep) {c : Client} :
    c ∈ m.snapshot ↔ m.clientsByID.lookup c.id = some c := by
  rw [h.snapshot_perm.mem_iff, GoMap.mem_values]
  constructor
  · rintro ⟨id, hid⟩
    -- the key of a client in the map is its own ID
    rwa [h.own_id id c hid]
  · exact fun hc => ⟨c.id, hc⟩

theorem Rep.nodup_snapshot (h : m.Rep) : m.snapshot.Nodup :=
  h.snapshot_perm.nodup_iff.mpr (GoMap.nodup_values h.own_id)

theorem Rep.newMountPoint (name description format : Bytes)
    (writeQueue writeTimeout maxClients : ℤ) :
    (newMountPoint name description format writeQueue writeTimeout maxClients).Rep where
  snapshot_perm := .refl []
  own_id id c h := by simp [NtripCaster.newMountPoint] at h
  clientCount := rfl
  sourceOnline := rfl

/-- Rebuilding the snapshot and storing the count make the copies of the clients agree. -/
theorem Rep.rebuild (ord : RangeOrder Client)
    (hid : ∀ id c, m.clientsByID.lookup id = some c → c.id = id)
    (hsrc : m.stats.sourceOnline = if m.source.isSome then 1 else 0) :
    (m.rebuildSnapshotLocked ord).storeClientCount.Rep where
  snapshot_perm := ord.visit_perm _
  own_id := hid
  clientCount := rfl
  sourceOnline := hsrc

theorem Rep.setSource (h : m.Rep) (info : SourceInfo) : (m.setSource info).1.Rep := by
  unfold MountPoint.setSource
  split_ifs
  · exact h
  · exact ⟨h.snapshot_perm, h.own_id, h.clientCount, rfl⟩

theorem Rep.clearSource (h : m.Rep) (ord : RangeOrder Client) (srcID : Bytes) :
    (m.clearSource ord srcID).1.Rep := by
  unfold MountPoint.clearSource
  split
  · exact h
  · split_ifs
    · exact h
    · exact ⟨h.snapshot_perm, h.own_id, h.clientCount, rfl⟩

theorem Rep.addClient (h : m.Rep) {m' : MountPoint} {ord : RangeOrder Client} {c : Client}
    (hadd : m.addClient ord c = .ok m') : m'.Rep := by
  unfold MountPoint.addClient at hadd
  split_ifs at hadd
  obtain rfl := Except.ok.inj hadd
  refine Rep.rebuild ord (fun id c' hc' => ?_) h.sourceOnline
  rcases GoMap.lookup_insert_eq_some.mp hc' with ⟨rfl, rfl⟩ | ⟨-, hold⟩
  · rfl
  · exact h.own_id id c' hold

theorem Rep.deleteClient (h : m.Rep) (ord : RangeOrder Client) (id : Bytes) :
    (m.deleteClient ord id).Rep :=
  Rep.rebuild ord (fun id' c hc => h.own_id id' c (GoMap.lookup_erase_eq_some.mp hc).2)
    h.sourceOnline

theorem Rep.removeClient (h : m.Rep) (ord : RangeOrder Client) (id : Bytes) :
    (m.removeClient ord id).Rep := by
  unfold MountPoint.removeClient
  split
  · exact h
  · exact h.deleteClient ord id

theorem Rep.kickClient (h : m.Rep) (ord : RangeOrder Client) (id : Bytes) :
    (m.kickClient ord id).1.Rep := by
  unfold MountPoint.kickClient
  split
  · exact h
  · exact h.deleteClient ord id

/-- A loop that finds nothing to delete leaves the map as it is. -/
theorem deleteWhere_of_filter_nil {ord : RangeOrder Client} {p : Client → Bool}
    (h : (ord.visit m.clientsByID.values).filter p = []) :
    m.clientsByID.deleteWhere (fun _ c => p c) = m.clientsByID := by
  refine AList.ext (List.filter_eq_self.mpr fun e he => ?_)
  have hmem : e.2 ∈ ord.visit m.clientsByID.values :=
    ord.mem_visit.mpr (List.mem_map_of_mem he)
  simpa using List.filter_eq_nil_iff.mp h e.2 hmem

theorem Rep.kickClientsByUser (h : m.Rep) (ord ord' : RangeOrder Client) (userID : ℤ) :
    (m.kickClientsByUser ord ord' userID).1.Rep := by
  unfold MountPoint.kickClientsByUser
  dsimp only
  split_ifs with hkick
  · exact Rep.rebuild ord'
      (fun id c hc => h.own_id id c (GoMap.lookup_deleteWhere.mp hc).1) h.sourceOnline
  · -- nothing was collected, so nothing was deleted and the old snapshot is still right
    simp only [deleteWhere_of_filter_nil (not_not.mp hkick)]
    exact h

theorem Rep.kickSourceByUser (h : m.Rep) (ord ord' : RangeOrder Client) (userID : ℤ) :
    (m.kickSourceByUser ord ord' userID).1.Rep := by
  unfold MountPoint.kickSourceByUser
  split
  · exact h
  · split_ifs
    · exact h
    · exact ⟨ord'.visit_perm _, fun id c hc => by simp [rebuildSnapshotLocked] at hc, rfl, rfl⟩

theorem Rep.disconnectAll (h : m.Rep) (ord : RangeOrder Client) :
    (m.disconnectAll ord).1.Rep :=
  ⟨h.snapshot_perm, h.own_id, h.clientCount, rfl⟩

theorem Rep.update (h : m.Rep) (description format : Bytes) (enabled : Bool)
    (writeQueue writeTimeout maxClients : ℤ) :
    (m.update description format enabled writeQueue writeTimeout maxClients).Rep :=
  ⟨h.snapshot_perm, h.own_id, h.clientCount, h.sourceOnline⟩

/-- Each critical section keeps the copies equal. -/
theorem Rep.apply (h : m.Rep) (op : CriticalSection) : (m.apply op).Rep := by
  cases op with
  | setSource info => exact h.setSource info
  | clearSource ord srcID => exact h.clearSource ord srcID
  | addClient ord c =>
    simp only [MountPoint.apply]
    split
    next hadd => exact h.addClient hadd
    next => exact h
  | removeClient ord id => exact h.removeClient ord id
  | kickClient ord id => exact h.kickClient ord id
  | kickClientsByUser ord ord' userID => exact h.kickClientsByUser ord ord' userID
  | kickSourceByUser ord ord' userID => exact h.kickSourceByUser ord ord' userID
  | disconnectAll ord => exact h.disconnectAll ord
  | update description format enabled writeQueue writeTimeout maxClients =>
    exact h.update description format enabled writeQueue writeTimeout maxClients

/-- A client joins the snapshot through `AddClient` only. -/
theorem Rep.mem_snapshot_addClient (h : m.Rep) {m' : MountPoint} {ord : RangeOrder Client}
    {c d : Client} (hadd : m.addClient ord c = .ok m') (hd : d ∈ m'.snapshot) :
    d = c ∨ d ∈ m.snapshot := by
  have hd' := (h.addClient hadd).mem_snapshot.mp hd
  unfold MountPoint.addClient at hadd
  split_ifs at hadd
  obtain rfl := Except.ok.inj hadd
  rcases GoMap.lookup_insert_eq_some.mp hd' with ⟨-, rfl⟩ | ⟨-, hold⟩
  · exact .inl rfl
  · exact .inr (h.mem_snapshot.mpr hold)

theorem lookup_removeClient {ord : RangeOrder Client} {id id' : Bytes} {c : Client}
    (hc : (m.removeClient ord id).clientsByID.lookup id' = some c) :
    id' ≠ id ∧ m.clientsByID.lookup id' = some c := by
  unfold MountPoint.removeClient at hc
  split at hc
  next hnone =>
    refine ⟨?_, hc⟩
    rintro rfl
    rw [hnone] at hc
    cases hc
  next => exact GoMap.lookup_erase_eq_some.mp hc

/-- No other critical section adds a client to the map. -/
theorem lookup_apply {op : CriticalSection} (hop : ∀ ord c, op ≠ .addClient ord c) {id : Bytes}
    {c : Client} (hc : (m.apply op).clientsByID.lookup id = some c) :
    m.clientsByID.lookup id = some c := by
  cases op with
  | setSource info =>
    simp only [MountPoint.apply, MountPoint.setSource] at hc
    split at hc <;> exact hc
  | clearSource ord srcID =>
    simp only [MountPoint.apply, MountPoint.clearSource] at hc
    split at hc
    · exact hc
    · split at hc <;> exact hc
  | addClient ord c => exact absurd rfl (hop ord c)
  | removeClient ord id => exact (lookup_removeClient hc).2
  | kickClient ord id =>
    simp only [MountPoint.apply, MountPoint.kickClient] at hc
    split at hc
    · exact hc
    · exact (GoMap.lookup_erase_eq_some.mp hc).2
  | kickClientsByUser ord ord' userID =>
    simp only [MountPoint.apply, MountPoint.kickClientsByUser] at hc
    split at hc <;> exact (GoMap.lookup_deleteWhere.mp hc).1
  | kickSourceByUser ord ord' userID =>
    simp only [MountPoint.apply, MountPoint.kickSourceByUser] at hc
    split at hc
    · exact hc
    · split at hc
      · exact hc
      · simp [rebuildSnapshotLocked] at hc
  | disconnectAll ord => exact hc
  | update description format enabled writeQueue writeTimeout maxClients => exact hc

theorem Rep.mem_snapshot_apply (h : m.Rep) {op : CriticalSection}
    (hop : ∀ ord c, op ≠ .addClient ord c) {d : Client} (hd : d ∈ (m.apply op).snapshot) :
    d ∈ m.snapshot :=
  h.mem_snapshot.mpr (lookup_apply hop ((h.apply op).mem_snapshot.mp hd))

/-- The critical sections store the two counters that are copies, and leave the others alone. -/
theorem stats_apply (op : CriticalSection) : ∃ clientCount sourceOnline, (m.apply op).stats =
    { m.stats with clientCount := clientCount, sourceOnline := sourceOnline } := by
  cases op with
  | setSource info =>
    simp only [MountPoint.apply, MountPoint.setSource]
    split <;> exact ⟨_, _, rfl⟩
  | clearSource ord srcID =>
    simp only [MountPoint.apply, MountPoint.clearSource]
    split
    · exact ⟨_, _, rfl⟩
    · split <;> exact ⟨_, _, rfl⟩
  | addClient ord c =>
    simp only [MountPoint.apply, MountPoint.addClient]
    split_ifs <;> exact ⟨_, _, rfl⟩
  | removeClient ord id =>
    simp only [MountPoint.apply, MountPoint.removeClient]
    split <;> exact ⟨_, _, rfl⟩
  | kickClient ord id =>
    simp only [MountPoint.apply, MountPoint.kickClient]
    split <;> exact ⟨_, _, rfl⟩
  | kickClientsByUser ord ord' userID =>
    simp only [MountPoint.apply, MountPoint.kickClientsByUser]
    split <;> exact ⟨_, _, rfl⟩
  | kickSourceByUser ord ord' userID =>
    simp only [MountPoint.apply, MountPoint.kickSourceByUser]
    split
    · exact ⟨_, _, rfl⟩
    · split <;> exact ⟨_, _, rfl⟩
  | disconnectAll ord => exact ⟨_, _, rfl⟩
  | update description format enabled writeQueue writeTimeout maxClients => exact ⟨_, _, rfl⟩

theorem kickCount_apply (op : CriticalSection) :
    (m.apply op).stats.kickCount = m.stats.kickCount := by
  obtain ⟨_, _, h⟩ := stats_apply (m := m) op
  rw [h]

theorem bytesOut_apply (op : CriticalSection) :
    (m.apply op).stats.bytesOut = m.stats.bytesOut := by
  obtain ⟨_, _, h⟩ := stats_apply (m := m) op
  rw [h]

end MountPoint

theorem mountPointSystem_rep {m : MountPoint} (h : mountPointSystem.Reachable m) : m.Rep := by
  refine h.invariant ?_ fun m op m' _ hm hstep => ?_
  · rintro m ⟨name, description, format, writeQueue, writeTimeout, maxClients, rfl⟩
    exact .newMountPoint name description format writeQueue writeTimeout maxClients
  · exact Option.some.inj hstep ▸ hm.apply op

/-- **The representation invariant**: whenever the mutex is free, the snapshot lists exactly the
clients of the map, each once; every client is stored under its own ID; `ClientCount` is the
size of the map; and `SourceOnline` is 1 exactly when a source is registered. -/
theorem reachable_representation {m : MountPoint} (h : mountPointSystem.Reachable m) :
    (∀ c, c ∈ m.snapshot ↔ ∃ id, m.clientsByID.lookup id = some c) ∧
      m.snapshot.Nodup ∧
      (∀ id c, m.clientsByID.lookup id = some c → c.id = id) ∧
      m.stats.clientCount = m.clientsByID.len ∧
      (m.stats.sourceOnline = 1 ↔ m.source.isSome) := by
  have hrep := mountPointSystem_rep h
  refine ⟨fun c => ?_, hrep.nodup_snapshot, hrep.own_id, hrep.clientCount, ?_⟩
  · rw [hrep.snapshot_perm.mem_iff, GoMap.mem_values]
  · rw [hrep.sourceOnline]
    cases m.source.isSome <;> decide

/-- A rover joins under an ID that is taken, the source's user is disabled, and the mountpoint
gets a new source. -/
def rejoin : List CriticalSection :=
  [.setSource ⟨0, ascii "s", 7⟩, .addClient .stored ⟨1, ascii "a", 3, 64, 0⟩,
    .addClient .stored ⟨2, ascii "a", 4, 64, 0⟩, .kickSourceByUser .stored .stored 7,
    .setSource ⟨3, ascii "t", 8⟩]

/-- The mountpoint after `rejoin`. -/
def rejoined : MountPoint :=
  rejoin.foldl MountPoint.apply (newMountPoint (ascii "M") [] (ascii "RTCM3") 64 3000000000 2)

theorem reachable_representation_rejoined :
    (∀ c, c ∈ rejoined.snapshot ↔ ∃ id, rejoined.clientsByID.lookup id = some c) ∧
      rejoined.snapshot.Nodup ∧
      (∀ id c, rejoined.clientsByID.lookup id = some c → c.id = id) ∧
      rejoined.stats.clientCount = rejoined.clientsByID.len ∧
      (rejoined.stats.sourceOnline = 1 ↔ rejoined.source.isSome) :=
  reachable_representation (.of_run rejoin ⟨_, _, _, _, _, _, rfl⟩ rfl)

end NtripCaster
