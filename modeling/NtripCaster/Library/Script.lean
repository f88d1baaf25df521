import Mathlib.Tactic.Common

/-!
# Scripts that may stop

A script is a list of stages, each a guard that is read once and statements that are executed one
by one if it holds. Every statement takes effect by itself, so a script that stops has executed the
statements before some place in its text.

## Main definitions

* `execAll`, `Stage.run`, `runAll`: statements, a stage, and a whole script
* `cut`: the script up to a place in its text

## Main results

* `cut_of_length_le`: a script that is not cut
* `runAll_cut_succ`, `runAll_cut_zero`: the stages before the place have run, its own stage in part
-/

namespace Script

universe u v

variable {σ : Type u} {ι : Type v}

/-- A guarded list of statements. -/
structure Stage (σ : Type u) (ι : Type v) where
  guard : σ → Bool
  statements : List ι

namespace Stage

/-- The first `j` statements of a stage. -/
def take (j : ℕ) (stage : Stage σ ι) : Stage σ ι := ⟨stage.guard, stage.statements.take j⟩

theorem take_of_length_le {j : ℕ} {stage : Stage σ ι} (h : stage.statements.length ≤ j) :
    stage.take j = stage := by
  rw [take, List.take_of_length_le h]

end Stage

/-- The script up to statement `j` of its stage `k`. -/
def cut : ℕ → ℕ → List (Stage σ ι) → List (Stage σ ι)
  | _, _, [] => []
  | 0, j, stage :: _ => [stage.take j]
  | k + 1, j, stage :: stages => stage :: cut k j stages

/-- A place past the last stage. -/
theorem cut_of_length_le {k j : ℕ} {stages : List (Stage σ ι)} (h : stages.length ≤ k) :
    cut k j stages = stages := by
  induction stages generalizing k with
  | nil => cases k <;> rfl
  | cons stage stages ih =>
    obtain _ | k := k
    · cases h
    · rw [cut, ih (Nat.le_of_succ_le_succ h)]

section Run

variable (exec : ι → σ → Option σ)

/-- Statements one by one, as long as none fails. -/
def execAll : List ι → σ → Option σ
  | [], s => some s
  | i :: is, s => (exec i s).bind (execAll is)

/-- A stage whose guard does not hold is passed over. -/
def Stage.run (stage : Stage σ ι) (s : σ) : Option σ :=
  if stage.guard s then execAll exec stage.statements s else some s

/-- All stages, up to the first statement that fails. -/
def runAll : List (Stage σ ι) → σ → Option σ
  | [], s => some s
  | stage :: stages, s => (stage.run exec s).bind (runAll stages)

variable {exec} {stage : Stage σ ι} {stages : List (Stage σ ι)} {s s' : σ} {k j : ℕ}

theorem Stage.run_of_guard_eq_false (h : stage.guard s = false) : stage.run exec s = some s := by
  rw [Stage.run, h]
  rfl

theorem Stage.run_of_guard (h : stage.guard s = true) :
    stage.run exec s = execAll exec stage.statements s := if_pos h

/-- The stages before the place have run. -/
theorem runAll_cut_succ (h : stage.run exec s = some s') :
    runAll exec (cut (k + 1) j (stage :: stages)) s = runAll exec (cut k j stages) s' := by
  rw [cut, runAll, h, Option.bind_some]

theorem runAll_cut_zero :
    runAll exec (cut 0 j (stage :: stages)) s = (stage.take j).run exec s := by
  rw [cut, runAll]
  cases (stage.take j).run exec s <;> rfl

end Run

end Script
