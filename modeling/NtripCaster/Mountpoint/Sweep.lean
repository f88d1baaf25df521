import NtripCaster.Mountpoint.Manager

/-!
# What `DisconnectUser` takes off

`DisconnectUser` sweeps every mountpoint of the registry: `KickSourceByUser` takes off a source of
the user with all the clients, and `KickClientsByUser` the user's clients.

## Main definitions

* `MountPoint.SourceOf`: the source is the user's
* `MountPoint.sweepUser`, `sweepTeardowns`: a mountpoint after its turn, and what is torn down

## Main results

* `MountPoint.source_sweepUser`, `lookup_sweepUser`, `stop_sweepTeardowns`, `kick_sweepTeardowns`:
  what a turn takes off
* `Manager.get_disconnectUser`, `stop_disconnectUser`, `kick_disconnectUser`: every mountpoint has
  one turn
-/

namespace NtripCaster

/-! ## One mountpoint -/

namespace MountPoint

section Sweep

variable (m : MountPoint) (ord ord' : RangeOrder Client) (id : ℤ)

/-- The source of the mountpoint is a session of the user. -/
def SourceOf : Prop := ∃ src, m.source = some src ∧ src.userID = id

/-- The mountpoint after `KickSourceByUser` and `KickClientsByUser`. -/
def sweepUser : MountPoint :=
  ((m.kickSourceByUser ord ord' id).1.kickClientsByUser ord ord' id).1

/-- What the two leave to tear down. -/
def sweepTeardowns : List Teardown :=
  [(m.kickSourceByUser ord ord' id).2.1,
    ((m.kickSourceByUser ord ord' id).1.kickClientsByUser ord ord' id).2]

end Sweep

variable {m : MountPoint} {ord ord' : RangeOrder Client} {id : ℤ}

/-- The clients are what they were, without the user's. -/
theorem clientsByID_kickClientsByUser :
    (m.kickClientsByUser ord ord' id).1.clientsByID =
      m.clientsByID.deleteWhere fun _ c => c.userID == id := by
  unfold kickClientsByUser
  dsimp only
  split_ifs <;> rfl

theorem source_kickClientsByUser : (m.kickClientsByUser ord ord' id).1.source = m.source := by
  unfold kickClientsByUser
  dsimp only
  split_ifs <;> rfl

theorem stop_kickClientsByUser : (m.kickClientsByUser ord ord' id).2.stop = none := by
  unfold kickClientsByUser
  dsimp only
  split_ifs <;> rfl

theorem mem_kick_kickClientsByUser {c : Client} :
    c ∈ (m.kickClientsByUser ord ord' id).2.kick ↔
      (∃ cid, m.clientsByID.lookup cid = some c) ∧ c.userID = id := by
  have hmem : c ∈ (ord.visit m.clientsByID.values).filter (·.userID == id) ↔
      (∃ cid, m.clientsByID.lookup cid = some c) ∧ c.userID = id := by
    rw [List.mem_filter, ord.mem_visit, GoMap.mem_values, beq_iff_eq]
  unfold kickClientsByUser
  dsimp only
  split_ifs with hkick
  · exact hmem
  · rw [not_not.mp hkick] at hmem
    exact hmem

/-- A source of another user stays with everybody. -/
theorem kickSourceByUser_of_not (h : ¬ m.SourceOf id) :
    m.kickSourceByUser ord ord' id = (m, {}, false) := by
  unfold kickSourceByUser
  split
  · rfl
  next src hsrc =>
    have hne : src.userID ≠ id := fun hu => h ⟨src, hsrc, hu⟩
    rw [if_pos hne]

/-- A source of the user goes with everybody. -/
theorem kickSourceByUser_of {src : SourceInfo} (hsrc : m.source = some src) (hu : src.userID = id) :
    (m.kickSourceByUser ord ord' id).1.source = none ∧
      (m.kickSourceByUser ord ord' id).1.clientsByID = ∅ ∧
      (m.kickSourceByUser ord ord' id).2.1 =
        { stop := some src, kick := ord.visit m.clientsByID.values } := by
  unfold kickSourceByUser
  split
  next hnone => cases hsrc.symm.trans hnone
  next src' hsrc' =>
    obtain rfl := Option.some.inj (hsrc.symm.trans hsrc')
    rw [if_neg (not_not.mpr hu)]
    exact ⟨rfl, rfl, rfl⟩

theorem source_sweepUser {src : SourceInfo} :
    (m.sweepUser ord ord' id).source = some src ↔ m.source = some src ∧ src.userID ≠ id := by
  rw [sweepUser, source_kickClientsByUser]
  by_cases h : m.SourceOf id
  · obtain ⟨src', hsrc, hu⟩ := h
    rw [(kickSourceByUser_of hsrc hu).1, hsrc]
    constructor
    · nofun
    · rintro ⟨heq, hne⟩
      obtain rfl := Option.some.inj heq
      exact absurd hu hne
  · rw [kickSourceByUser_of_not h]
    exact ⟨fun hsrc => ⟨hsrc, fun hu => h ⟨src, hsrc, hu⟩⟩, And.left⟩

theorem lookup_sweepUser {cid : Bytes} {c : Client} :
    (m.sweepUser ord ord' id).clientsByID.lookup cid = some c ↔
      m.clientsByID.lookup cid = some c ∧ ¬ m.SourceOf id ∧ c.userID ≠ id := by
  rw [sweepUser, clientsByID_kickClientsByUser, GoMap.lookup_deleteWhere, beq_eq_false_iff_ne]
  by_cases h : m.SourceOf id
  · have hof := h
    obtain ⟨src, hsrc, hu⟩ := hof
    rw [(kickSourceByUser_of hsrc hu).2.1]
    simp [h]
  · rw [kickSourceByUser_of_not h]
    simp [h]

theorem stop_sweepTeardowns {src : SourceInfo} :
    (∃ t ∈ m.sweepTeardowns ord ord' id, t.stop = some src) ↔
      m.source = some src ∧ src.userID = id := by
  simp only [sweepTeardowns, List.mem_cons, List.not_mem_nil, or_false, exists_eq_or_imp,
    exists_eq_left, stop_kickClientsByUser, reduceCtorEq]
  by_cases h : m.SourceOf id
  · obtain ⟨src', hsrc, hu⟩ := h
    rw [(kickSourceByUser_of hsrc hu).2.2, hsrc]
    refine ⟨fun heq => ⟨heq, ?_⟩, And.left⟩
    obtain rfl := Option.some.inj heq
    exact hu
  · rw [kickSourceByUser_of_not h]
    exact ⟨nofun, fun hsrc => absurd ⟨src, hsrc⟩ h⟩

theorem kick_sweepTeardowns {c : Client} :
    (∃ t ∈ m.sweepTeardowns ord ord' id, c ∈ t.kick) ↔
      (∃ cid, m.clientsByID.lookup cid = some c) ∧ (m.SourceOf id ∨ c.userID = id) := by
  simp only [sweepTeardowns, List.mem_cons, List.not_mem_nil, or_false, exists_eq_or_imp,
    exists_eq_left, mem_kick_kickClientsByUser]
  by_cases h : m.SourceOf id
  · have hof := h
    obtain ⟨src, hsrc, hu⟩ := hof
    -- everybody goes with the source, and is no client any more
    rw [(kickSourceByUser_of hsrc hu).2.2, (kickSourceByUser_of hsrc hu).2.1]
    simp [h, GoMap.mem_values]
  · rw [kickSourceByUser_of_not h]
    simp [h]

end MountPoint

/-! ## The registry -/

namespace Manager

variable {mgr : Manager} {ord ord' : RangeOrder Client} {id : ℤ}

/-- The turn of one mountpoint in the loop of `DisconnectUser`. -/
def sweepMount (ord ord' : RangeOrder Client) (id : ℤ) (acc : Manager × List Teardown)
    (name : Bytes) : Manager × List Teardown :=
  match acc.1.get name with
  | none => acc
  | some mp =>
    (acc.1.set name (mp.sweepUser ord ord' id), acc.2 ++ mp.sweepTeardowns ord ord' id)

theorem disconnectUser_eq (visit : RangeOrder Bytes) :
    mgr.disconnectUser visit ord ord' id =
      (visit.visit mgr.mounts.keys).foldl (sweepMount ord ord' id) (mgr, []) := rfl

theorem get_sweepMount (acc : Manager × List Teardown) (name name' : Bytes) :
    (sweepMount ord ord' id acc name).1.get name' =
      if name' = name then (acc.1.get name').map (·.sweepUser ord ord' id)
      else acc.1.get name' := by
  unfold sweepMount
  split
  next hget =>
    split_ifs with h
    · rw [h, hget, Option.map_none]
    · rfl
  next mp hget =>
    split_ifs with h
    · rw [h, hget, Option.map_some, get_set_self]
    · exact get_set_ne h _

theorem mem_sweepMount (acc : Manager × List Teardown) (name : Bytes) (t : Teardown) :
    t ∈ (sweepMount ord ord' id acc name).2 ↔
      t ∈ acc.2 ∨ ∃ mp, acc.1.get name = some mp ∧ t ∈ mp.sweepTeardowns ord ord' id := by
  unfold sweepMount
  split
  next hget => simp [hget]
  next mp hget => simp [hget]

/-- The loop gives each of its mountpoints one turn. -/
theorem foldl_sweepMount {names : List Bytes} (hnames : names.Nodup)
    (acc : Manager × List Teardown) :
    (∀ name, (names.foldl (sweepMount ord ord' id) acc).1.get name =
      if name ∈ names then (acc.1.get name).map (·.sweepUser ord ord' id)
      else acc.1.get name) ∧
    ∀ t, t ∈ (names.foldl (sweepMount ord ord' id) acc).2 ↔
      t ∈ acc.2 ∨ ∃ name ∈ names, ∃ mp, acc.1.get name = some mp ∧
        t ∈ mp.sweepTeardowns ord ord' id := by
  induction names generalizing acc with
  | nil => simp
  | cons n names ih =>
    obtain ⟨hn, hnames⟩ := List.nodup_cons.mp hnames
    obtain ⟨hget, hmem⟩ := ih hnames (sweepMount ord ord' id acc n)
    constructor
    · intro name
      rw [List.foldl_cons, hget, get_sweepMount]
      by_cases hname : name = n
      · subst hname
        simp [hn]
      · simp [hname]
    · intro t
      rw [List.foldl_cons, hmem, mem_sweepMount, List.exists_mem_cons_iff, or_assoc]
      refine or_congr_right (or_congr_right (exists_congr fun name => ?_))
      refine and_congr_right fun hin => ?_
      rw [get_sweepMount, if_neg (ne_of_mem_of_not_mem hin hn)]

theorem mem_keys {name : Bytes} : name ∈ mgr.mounts.keys ↔ ∃ mp, mgr.get name = some mp := by
  rw [← AList.mem_keys, ← AList.lookup_isSome, Option.isSome_iff_exists]
  rfl

/-- After `DisconnectUser` every mountpoint has had its turn. -/
theorem get_disconnectUser (visit : RangeOrder Bytes) (name : Bytes) :
    (mgr.disconnectUser visit ord ord' id).1.get name =
      (mgr.get name).map (·.sweepUser ord ord' id) := by
  have hnodup : (visit.visit mgr.mounts.keys).Nodup :=
    (visit.visit_perm _).nodup_iff.mpr mgr.mounts.keys_nodup
  rw [disconnectUser_eq, (foldl_sweepMount hnodup _).1 name]
  split_ifs with h
  · rfl
  · rw [visit.mem_visit, mem_keys, not_exists] at h
    rw [Option.eq_none_iff_forall_not_mem.mpr h, Option.map_none]

theorem mem_teardowns_disconnectUser (visit : RangeOrder Bytes) {t : Teardown} :
    t ∈ (mgr.disconnectUser visit ord ord' id).2 ↔
      ∃ name mp, mgr.get name = some mp ∧ t ∈ mp.sweepTeardowns ord ord' id := by
  have hnodup : (visit.visit mgr.mounts.keys).Nodup :=
    (visit.visit_perm _).nodup_iff.mpr mgr.mounts.keys_nodup
  rw [disconnectUser_eq, (foldl_sweepMount hnodup _).2 t]
  constructor
  · rintro (ht | ⟨name, -, mp, hget, ht⟩)
    · cases ht
    · exact ⟨name, mp, hget, ht⟩
  · rintro ⟨name, mp, hget, ht⟩
    exact .inr ⟨name, visit.mem_visit.mpr (mem_keys.mpr ⟨mp, hget⟩), mp, hget, ht⟩

/-- What is torn down is torn down in the turn of some mountpoint. -/
theorem exists_teardown_disconnectUser (visit : RangeOrder Bytes) {p : Teardown → Prop} :
    (∃ t ∈ (mgr.disconnectUser visit ord ord' id).2, p t) ↔
      ∃ name mp, mgr.get name = some mp ∧ ∃ t ∈ mp.sweepTeardowns ord ord' id, p t := by
  constructor
  · rintro ⟨t, ht, hp⟩
    obtain ⟨name, mp, hget, ht⟩ := (mem_teardowns_disconnectUser visit).mp ht
    exact ⟨name, mp, hget, t, ht, hp⟩
  · rintro ⟨name, mp, hget, t, ht, hp⟩
    exact ⟨t, (mem_teardowns_disconnectUser visit).mpr ⟨name, mp, hget, ht⟩, hp⟩

theorem stop_disconnectUser (visit : RangeOrder Bytes) {src : SourceInfo} :
    (∃ t ∈ (mgr.disconnectUser visit ord ord' id).2, t.stop = some src) ↔
      ∃ name mp, mgr.get name = some mp ∧ mp.source = some src ∧ src.userID = id := by
  simp only [exists_teardown_disconnectUser, MountPoint.stop_sweepTeardowns]

theorem kick_disconnectUser (visit : RangeOrder Bytes) {c : Client} :
    (∃ t ∈ (mgr.disconnectUser visit ord ord' id).2, c ∈ t.kick) ↔
      ∃ name mp, mgr.get name = some mp ∧ (∃ cid, mp.clientsByID.lookup cid = some c) ∧
        (mp.SourceOf id ∨ c.userID = id) := by
  simp only [exists_teardown_disconnectUser, MountPoint.kick_sweepTeardowns]

end Manager

end NtripCaster
