import Mathlib.Data.Int.Notation
import NtripCaster.Go.Bytes
import NtripCaster.Go.Map

/-!
# Limiters

`internal/limiter`: a counter of connections for each IP address, and one counter of rovers for
the whole server.

## Main definitions

* `IPLimiter`, `IPLimiter.allow`, `IPLimiter.release`
* `GlobalLimiter`, `GlobalLimiter.add`, `GlobalLimiter.release`, `GlobalLimiter.atCapacity`

## Main results

* `IPLimiter.counts_allow`, `IPLimiter.counts_release`: the counters after a call
-/

namespace NtripCaster

/-- `IPLimiter`. An address that is absent counts 0. -/
structure IPLimiter where
  counts : GoMap Bytes ℤ
  limit : ℤ

/-- `NewIPLimiter`. -/
def newIPLimiter (limit : ℤ) : IPLimiter := ⟨∅, limit⟩

namespace IPLimiter

variable (l : IPLimiter)

/-- `l.counts[ip]`: 0 where there is no entry. -/
def count (ip : Bytes) : ℤ := (l.counts.lookup ip).getD 0

/-- `Allow`. -/
def allow (ip : Bytes) : IPLimiter × Bool :=
  if l.count ip ≥ l.limit then (l, false)
  else ({ l with counts := l.counts.insert ip (l.count ip + 1) }, true)

/-- `Release`: an entry that reaches 0 is deleted. -/
def release (ip : Bytes) : IPLimiter :=
  let counts := l.counts.insert ip (l.count ip - 1)
  if l.count ip - 1 ≤ 0 then { l with counts := counts.erase ip } else { l with counts := counts }

variable {l}

theorem allow_eq_true {ip : Bytes} :
    (l.allow ip).2 = true ↔ l.count ip < l.limit := by
  unfold allow
  split_ifs with h
  · simpa using h
  · simpa using h

theorem limit_allow (ip : Bytes) : (l.allow ip).1.limit = l.limit := by
  unfold allow
  split_ifs <;> rfl

theorem limit_release (ip : Bytes) : (l.release ip).limit = l.limit := by
  unfold release
  dsimp only
  split_ifs <;> rfl

/-- A connection that is allowed is counted. -/
theorem count_allow {ip : Bytes} (h : (l.allow ip).2 = true) (ip' : Bytes) :
    (l.allow ip).1.count ip' = if ip' = ip then l.count ip + 1 else l.count ip' := by
  have hlt : ¬ l.count ip ≥ l.limit := Int.not_le.mpr (allow_eq_true.mp h)
  have hcounts : (l.allow ip).1.counts = l.counts.insert ip (l.count ip + 1) := by
    rw [allow, if_neg hlt]
  unfold count at hcounts ⊢
  rw [hcounts]
  by_cases hip : ip' = ip
  · subst hip
    simp
  · simp [AList.lookup_insert_ne hip, hip]

/-- A connection that was counted is taken off. -/
theorem count_release {ip : Bytes} (h : 1 ≤ l.count ip) (ip' : Bytes) :
    (l.release ip).count ip' = if ip' = ip then l.count ip - 1 else l.count ip' := by
  unfold release
  dsimp only
  by_cases hip : ip' = ip
  · subst hip
    rw [if_pos rfl]
    split
    next hle =>
      -- the entry is deleted exactly when it has reached 0
      have hone : l.count ip' - 1 = 0 := by omega
      rw [hone]
      simp [count]
    next => simp [count]
  · rw [if_neg hip]
    split <;> simp [count, AList.lookup_insert_ne hip, AList.lookup_erase_ne hip]

end IPLimiter

/-- `GlobalLimiter`; its two counters, of 64 bits, are taken to stay below 2⁶³. -/
structure GlobalLimiter where
  count : ℤ
  maxCount : ℤ
  deriving DecidableEq, Repr

/-- `NewGlobalLimiter`. -/
def newGlobalLimiter (maxClients : ℤ) : GlobalLimiter := ⟨0, maxClients⟩

namespace GlobalLimiter

variable (l : GlobalLimiter)

/-- `Add`. -/
def add : GlobalLimiter := { l with count := l.count + 1 }

/-- `Release`. -/
def release : GlobalLimiter := { l with count := l.count - 1 }

/-- `AtCapacity`. -/
def atCapacity : Bool := decide (l.count ≥ l.maxCount)

end GlobalLimiter

end NtripCaster
