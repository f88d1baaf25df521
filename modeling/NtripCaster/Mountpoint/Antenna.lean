import Mathlib.Data.List.Induction
import NtripCaster.Rtcm.Decode1005

/-!
# The antenna position of a mountpoint

`UpdateAntennaPosition` of `internal/mountpoint/mountpoint.go`: the position is stored unless the
last one is less than five seconds old. The clock is in nanoseconds.

## Main definitions

* `AntennaState`: the fields behind `antennaPosMu`
* `AntennaState.updateAntennaPosition`, with its log entries
* `history`: the state and the accepted calls after a sequence of calls

## Main results

* `debounced_iff`: when a call is rejected
* `antenna_throttling`: accepted calls are five seconds apart, and no call that is five seconds
  after the last accepted one is rejected
-/

namespace NtripCaster

/-- `DistanceBetweenPositions`, for two positions that are there. -/
def distanceBetweenPositions (p₁ p₂ : AntennaPosition) : Float :=
  let dLat := (p₂.latitude - p₁.latitude) * mathPi / 180
  let dLon := (p₂.longitude - p₁.longitude) * mathPi / 180
  let sinDLat := Float.sin (dLat / 2)
  let sinDLon := Float.sin (dLon / 2)
  let a := sinDLat * sinDLat + Float.cos (p₁.latitude * mathPi / 180) *
    Float.cos (p₂.latitude * mathPi / 180) * sinDLon * sinDLon
  6371000 * (2 * Float.atan2 (Float.sqrt a) (Float.sqrt (1 - a)))

/-- The log entries of `UpdateAntennaPosition`. -/
inductive AntennaLog
  | debounced
  | largeJump
  | set
  | updated
  deriving DecidableEq, Repr

/-- The fields of a `MountPoint` that hold its antenna position. -/
structure AntennaState where
  antennaPos : Option AntennaPosition := none
  antennaPosLastUpdate : Int64 := 0

/-- `int64(5 * time.Second)`. -/
def debounceNanos : Int64 := 5000000000

namespace AntennaState

/-- The jump detection. -/
def jumpLog (s : AntennaState) (pos : Option AntennaPosition) : List AntennaLog :=
  match s.antennaPos, pos with
  | some old, some pos => if 10000 < distanceBetweenPositions old pos then [.largeJump] else []
  | _, _ => []

/-- The entry for a stored position. -/
def storedLog (s : AntennaState) (pos : Option AntennaPosition) : List AntennaLog :=
  if pos.isNone then [] else if s.antennaPos.isNone then [.set] else [.updated]

/-- `UpdateAntennaPosition` at the clock reading `now`; the pointer `pos` may be nil. -/
def updateAntennaPosition (s : AntennaState) (now : Int64) (pos : Option AntennaPosition) :
    AntennaState × List AntennaLog :=
  if 0 < s.antennaPosLastUpdate ∧ now - s.antennaPosLastUpdate < debounceNanos then
    (s, [.debounced])
  else (⟨pos, now⟩, s.jumpLog pos ++ s.storedLog pos)

/-- `GetAntennaPosition`: the last position that was stored. -/
def getAntennaPosition (s : AntennaState) : Option AntennaPosition := s.antennaPos

end AntennaState

/-- A call of `UpdateAntennaPosition`. -/
structure AntennaCall where
  now : Int64
  pos : Option AntennaPosition

/-- The state after a call, and the calls accepted so far: those that are not debounced. -/
def recordCall (h : AntennaState × List AntennaCall) (c : AntennaCall) :
    AntennaState × List AntennaCall :=
  let r := h.1.updateAntennaPosition c.now c.pos
  (r.1, if .debounced ∈ r.2 then h.2 else h.2 ++ [c])

/-- A fresh mountpoint after the calls, and those of them that were accepted. -/
def history (calls : List AntennaCall) : AntennaState × List AntennaCall :=
  calls.foldl recordCall ({}, [])

theorem history_concat (calls : List AntennaCall) (c : AntennaCall) :
    history (calls ++ [c]) = recordCall (history calls) c := by
  rw [history, List.foldl_append]
  rfl

namespace AntennaState

variable (s : AntennaState)

theorem debounced_not_mem_log (pos : Option AntennaPosition) :
    .debounced ∉ s.jumpLog pos ++ s.storedLog pos := by
  unfold jumpLog storedLog
  intro h
  rcases List.mem_append.mp h with h | h
  · split at h
    · split_ifs at h <;> simp at h
    · cases h
  · split_ifs at h <;> simp at h

theorem recordCall_of_debounced {acc : List AntennaCall} {c : AntennaCall}
    (h : 0 < s.antennaPosLastUpdate ∧ c.now - s.antennaPosLastUpdate < debounceNanos) :
    recordCall (s, acc) c = (s, acc) := by
  simp only [recordCall, updateAntennaPosition, if_pos h, List.mem_singleton, if_true]

theorem recordCall_of_accepted {acc : List AntennaCall} {c : AntennaCall}
    (h : ¬ (0 < s.antennaPosLastUpdate ∧ c.now - s.antennaPosLastUpdate < debounceNanos)) :
    recordCall (s, acc) c = (⟨c.pos, c.now⟩, acc ++ [c]) := by
  simp only [recordCall, updateAntennaPosition, if_neg h, if_neg (s.debounced_not_mem_log c.pos)]

end AntennaState

/-- Two positive readings of the clock are subtracted without an overflow. -/
theorem debounced_iff {last now : Int64} (hlast : 0 < last) (hnow : 0 < now) :
    now - last < debounceNanos ↔ now.toInt - last.toInt < 5 * 10 ^ 9 := by
  have hlast' : 0 < last.toInt := Int64.lt_iff_toInt_lt.mp hlast
  have hnow' : 0 < now.toInt := Int64.lt_iff_toInt_lt.mp hnow
  have hlast_lt := last.toInt_lt
  have hnow_lt := now.toInt_lt
  have hsub : (now - last).toInt = now.toInt - last.toInt := by
    rw [Int64.toInt_sub]
    exact Int.bmod_eq_of_le (by omega) (by omega)
  rw [Int64.lt_iff_toInt_lt, hsub]
  rfl

/-- What the state keeps of the accepted calls: the last of them. -/
structure Keeps (s : AntennaState) (acc : List AntennaCall) : Prop where
  pos : s.antennaPos = acc.getLast?.bind AntennaCall.pos
  last : s.antennaPosLastUpdate = (acc.getLast?.map AntennaCall.now).getD 0

theorem keeps_history (calls : List AntennaCall) :
    Keeps (history calls).1 (history calls).2 ∧ ∀ c ∈ (history calls).2, c ∈ calls := by
  induction calls using List.reverseRecOn with
  | nil => exact ⟨⟨rfl, rfl⟩, fun c h => h⟩
  | append_singleton calls c ih =>
    obtain ⟨hkeeps, hmem⟩ := ih
    rw [history_concat]
    by_cases h : 0 < (history calls).1.antennaPosLastUpdate ∧
        c.now - (history calls).1.antennaPosLastUpdate < debounceNanos
    · rw [AntennaState.recordCall_of_debounced _ h]
      exact ⟨hkeeps, fun c' hc' => List.mem_append_left _ (hmem c' hc')⟩
    · rw [AntennaState.recordCall_of_accepted _ h]
      refine ⟨⟨by rw [List.getLast?_concat]; rfl, by rw [List.getLast?_concat]; rfl⟩,
        fun c' hc' => ?_⟩
      rcases List.mem_append.mp hc' with hc' | hc'
      · exact List.mem_append_left _ (hmem c' hc')
      · exact List.mem_append_right _ hc'

/-- A call is accepted unless the last accepted one is less than five seconds old. -/
theorem history_concat_eq {calls : List AntennaCall} (hpos : ∀ c ∈ calls, 0 < c.now)
    {c : AntennaCall} (hc : 0 < c.now) :
    (history (calls ++ [c])).2 = (history calls).2 ∧
        (∃ a, (history calls).2.getLast? = some a ∧ c.now.toInt - a.now.toInt < 5 * 10 ^ 9) ∨
      (history (calls ++ [c])).2 = (history calls).2 ++ [c] ∧
        ∀ a, (history calls).2.getLast? = some a → 5 * 10 ^ 9 ≤ c.now.toInt - a.now.toInt := by
  obtain ⟨hkeeps, hmem⟩ := keeps_history calls
  have hlast := hkeeps.last
  rw [history_concat]
  cases hget : (history calls).2.getLast? with
  | none =>
    rw [hget] at hlast
    have h : ¬ (0 < (history calls).1.antennaPosLastUpdate ∧
        c.now - (history calls).1.antennaPosLastUpdate < debounceNanos) := by
      rw [hlast]
      exact fun h => absurd h.1 (by decide)
    rw [AntennaState.recordCall_of_accepted _ h]
    exact .inr ⟨rfl, nofun⟩
  | some a =>
    rw [hget] at hlast
    have ha : 0 < a.now := hpos a (hmem a (List.mem_of_getLast? hget))
    have hiff : (0 < (history calls).1.antennaPosLastUpdate ∧
        c.now - (history calls).1.antennaPosLastUpdate < debounceNanos) ↔
        c.now.toInt - a.now.toInt < 5 * 10 ^ 9 := by
      rw [hlast]
      exact (and_iff_right ha).trans (debounced_iff ha hc)
    by_cases h : c.now.toInt - a.now.toInt < 5 * 10 ^ 9
    · rw [AntennaState.recordCall_of_debounced _ (hiff.mpr h)]
      exact .inl ⟨rfl, a, rfl, h⟩
    · rw [AntennaState.recordCall_of_accepted _ (mt hiff.mp h)]
      refine .inr ⟨rfl, fun a' ha' => ?_⟩
      obtain rfl := Option.some.inj ha'
      omega

/-- Each accepted call is five seconds after the ones accepted before it. -/
theorem history_pairwise {calls : List AntennaCall} (hpos : ∀ c ∈ calls, 0 < c.now) :
    (history calls).2.Pairwise fun a b => 5 * 10 ^ 9 ≤ b.now.toInt - a.now.toInt := by
  induction calls using List.reverseRecOn with
  | nil => exact .nil
  | append_singleton calls c ih =>
    have ⟨hpos, hc⟩ := List.forall_mem_append.mp hpos
    have hpair := ih hpos
    rcases history_concat_eq hpos (hc c (List.mem_singleton_self c)) with ⟨heq, -⟩ | ⟨heq, hlast⟩
    · rw [heq]
      exact hpair
    · rw [heq]
      refine List.pairwise_append.mpr ⟨hpair, List.pairwise_singleton _ _, fun a ha b hb => ?_⟩
      obtain rfl := List.mem_singleton.mp hb
      -- no accepted call is later than the last one
      obtain ⟨rest, z, hz⟩ := List.eq_nil_or_concat' (history calls).2 |>.resolve_left
        (List.ne_nil_of_mem ha)
      rw [hz] at hpair ha
      have hbz := hlast z (by rw [hz, List.getLast?_concat])
      rcases List.mem_append.mp ha with ha | ha
      · have := (List.pairwise_append.mp hpair).2.2 a ha z (List.mem_singleton_self z)
        omega
      · obtain rfl := List.mem_singleton.mp ha
        exact hbz

/-- What has been accepted stays accepted. -/
theorem history_isPrefix (before after : List AntennaCall) :
    (history before).2 <+: (history (before ++ after)).2 := by
  induction after using List.reverseRecOn with
  | nil => simp
  | append_singleton after c ih =>
    rw [← List.append_assoc, history_concat]
    refine ih.trans ?_
    unfold recordCall
    dsimp only
    split_ifs
    · exact List.prefix_rfl
    · exact List.prefix_append _ _

/-- **Throttling neither bursts nor starves**: over every sequence of calls at positive readings of
the clock, the stored position is that of the last accepted call, accepted calls are at least
five seconds apart, the first call is accepted, and so is every call that is at least five seconds
after the last accepted one. -/
theorem antenna_throttling (calls : List AntennaCall) (hpos : ∀ c ∈ calls, 0 < c.now) :
    (history calls).1.getAntennaPosition = (history calls).2.getLast?.bind AntennaCall.pos ∧
      ((history calls).2.Pairwise fun a b => 5 * 10 ^ 9 ≤ b.now.toInt - a.now.toInt) ∧
      (∀ c after, calls = c :: after → (history calls).2.head? = some c) ∧
      ∀ before c after, calls = before ++ c :: after →
        (∀ a, (history before).2.getLast? = some a →
          5 * 10 ^ 9 ≤ c.now.toInt - a.now.toInt) →
        (history (before ++ [c])).2 = (history before).2 ++ [c] := by
  refine ⟨(keeps_history calls).1.pos, history_pairwise hpos, ?_, ?_⟩
  · rintro c after rfl
    have hfirst : (history [c]).2 = [c] :=
      congrArg Prod.snd (AntennaState.recordCall_of_accepted {} fun h => absurd h.1 (by decide))
    obtain ⟨more, hmore⟩ := history_isPrefix [c] after
    rw [hfirst] at hmore
    exact congrArg List.head? hmore.symm
  · rintro before c after rfl hlast
    have ⟨hbefore, hafter⟩ := List.forall_mem_append.mp hpos
    rcases history_concat_eq hbefore (hafter c List.mem_cons_self) with ⟨-, a, ha, hlt⟩ | ⟨heq, -⟩
    · have := hlast a ha
      omega
    · exact heq

/-- The second call comes too early; the third comes exactly five seconds after the first. -/
theorem antenna_throttling_five_seconds :
    let calls : List AntennaCall :=
      [⟨1, none⟩, ⟨4000000000, none⟩, ⟨5000000001, some ⟨0, 0, 0, 5⟩⟩]
    (history calls).1.getAntennaPosition = (history calls).2.getLast?.bind AntennaCall.pos ∧
      ((history calls).2.Pairwise fun a b => 5 * 10 ^ 9 ≤ b.now.toInt - a.now.toInt) ∧
      (∀ c after, calls = c :: after → (history calls).2.head? = some c) ∧
      ∀ before c after, calls = before ++ c :: after →
        (∀ a, (history before).2.getLast? = some a →
          5 * 10 ^ 9 ≤ c.now.toInt - a.now.toInt) →
        (history (before ++ [c])).2 = (history before).2 ++ [c] :=
  antenna_throttling _ (by
    simp only [List.forall_mem_cons]
    exact ⟨by decide, by decide, by decide, by simp⟩)

end NtripCaster
