import Mathlib.Tactic.Common

/-!
# Chains of writes

A request that makes its writes one after the other, and returns at the first that fails. What was
written stays.

## Main definitions

* `run`: the writes of a chain up to the first that fails

## Main results

* `run_error`: a chain that fails has made exactly the writes before the one that failed
* `run_invariant`, `run_keeps`: what every write of a chain keeps, the chain keeps
-/

namespace Chain

universe u v w

variable {σ : Type u} {ω : Type v} {ε : Type w} {act : ω → σ → Except ε σ}

/-- The state after the writes up to the first that fails, and its error. -/
def run (act : ω → σ → Except ε σ) : List ω → σ → σ × Except ε Unit
  | [], s => (s, .ok ())
  | w :: ws, s =>
    match act w s with
    | .error e => (s, .error e)
    | .ok s' => run act ws s'

theorem run_cons_error {w : ω} {ws : List ω} {s : σ} {e : ε} (h : act w s = .error e) :
    run act (w :: ws) s = (s, .error e) := by
  rw [run, h]

theorem run_cons_ok {w : ω} {ws : List ω} {s s' : σ} (h : act w s = .ok s') :
    run act (w :: ws) s = run act ws s' := by
  rw [run, h]

/-- A chain that fails has made exactly the writes before the one that failed. -/
theorem run_error {ws : List ω} {s s' : σ} {e : ε} (h : run act ws s = (s', .error e)) :
    ∃ done w rest, ws = done ++ w :: rest ∧ run act done s = (s', .ok ()) ∧
      act w s' = .error e := by
  induction ws generalizing s with
  | nil => cases h
  | cons w ws ih =>
    cases hw : act w s with
    | error e' =>
      rw [run_cons_error hw] at h
      obtain ⟨rfl, he⟩ := Prod.mk.inj h
      obtain rfl := Except.error.inj he
      exact ⟨[], w, ws, rfl, rfl, hw⟩
    | ok t =>
      rw [run_cons_ok hw] at h
      obtain ⟨done, w', rest, rfl, hdone, hfail⟩ := ih h
      exact ⟨w :: done, w', rest, rfl, (run_cons_ok hw).trans hdone, hfail⟩

/-- An invariant of every write is one of the chain, wherever it stops. -/
theorem run_invariant {P : σ → Prop} {ws : List ω} {s : σ}
    (hkeep : ∀ w ∈ ws, ∀ s s', P s → act w s = .ok s' → P s') (hs : P s) : P (run act ws s).1 := by
  induction ws generalizing s with
  | nil => exact hs
  | cons w ws ih =>
    cases hw : act w s with
    | error e =>
      rw [run_cons_error hw]
      exact hs
    | ok t =>
      rw [run_cons_ok hw]
      exact ih (fun w' hw' => hkeep w' (List.mem_cons_of_mem w hw'))
        (hkeep w List.mem_cons_self s t hs hw)

/-- What every write of a chain keeps, the chain keeps. -/
theorem run_keeps {α : Type*} {f : σ → α} {ws : List ω} {s s' : σ} {r : Except ε Unit}
    (hkeep : ∀ w ∈ ws, ∀ s s', act w s = .ok s' → f s' = f s) (h : run act ws s = (s', r)) :
    f s' = f s := by
  have hinv : f (run act ws s).1 = f s := run_invariant (P := fun t => f t = f s)
    (fun w hw t t' ht hact => (hkeep w hw t t' hact).trans ht) rfl
  rwa [h] at hinv

end Chain
