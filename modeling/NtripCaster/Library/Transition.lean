import Mathlib.Data.List.Perm.Subperm
import Mathlib.Data.Nat.Notation
import Mathlib.Tactic.Common

/-!
# Executable transition systems

Concurrent processes are interleaved step by step: an action names the process that moves and
the choices it makes, and `step` says what the move does, or that it is not enabled.

## Main definitions

* `System`: initial states and a partial step function
* `System.run`: the effect of a list of actions
* `System.Reachable`: the states of all runs
* `System.restrict`: the runs in which every step meets a condition on its pre-state
* `System.count`: how many steps of a run do something

## Main results

* `System.Reachable.invariant`: what holds initially and is kept by every step holds always
* `System.Reachable.of_run`: an executed run reaches its last state
* `System.exists_step_ending`: what does not hold any more was ended by a step
* `System.Reachable.of_restrict`: a restricted run is a run
* `System.Reachable.map`: a part of the state that runs through a system of its own
* `System.count_eq`: what every counted step adds to, and no other step changes, is the count
* `pair_sublist_append`, `pair_sublist_total`: what has happened before what, in a list of events
* `forall_mem_set`, `countP_set`: what the move of one process does to a list of processes
* `Moved.exists_getElem?`, `Moved.of_getElem?`: a list of processes after a step and before it
-/

namespace Transition

universe u v

/-- A transition system over states `σ` and actions `α`. -/
structure System (σ : Type u) (α : Type v) where
  init : σ → Prop
  step : σ → α → Option σ

namespace System

variable {σ : Type u} {α : Type v} (S : System σ α)

/-- The state after the actions `as`, if each of them is enabled in turn. -/
def run (s : σ) : List α → Option σ
  | [] => some s
  | a :: as => (S.step s a).bind fun s' => run s' as

/-- The states of the runs from an initial state. -/
inductive Reachable : σ → Prop
  | init {s : σ} (h : S.init s) : Reachable s
  | step {s s' : σ} {a : α} (h : Reachable s) (hs : S.step s a = some s') : Reachable s'

/-- The system whose steps meet the condition `G` on pre-state and action. -/
def restrict (G : σ → α → Prop) [∀ s a, Decidable (G s a)] : System σ α where
  init := S.init
  step s a := if G s a then S.step s a else none

variable {S}

/-- An invariant of every step, proved with the reachability of the pre-state at hand. -/
theorem Reachable.invariant {I : σ → Prop} (hinit : ∀ s, S.init s → I s)
    (hstep : ∀ s a s', S.Reachable s → I s → S.step s a = some s' → I s') {s : σ}
    (h : S.Reachable s) : I s := by
  induction h with
  | init h => exact hinit _ h
  | step h hs ih => exact hstep _ _ _ h ih hs

theorem run_append (s : σ) (as bs : List α) :
    S.run s (as ++ bs) = (S.run s as).bind fun t => S.run t bs := by
  induction as generalizing s with
  | nil => rfl
  | cons a as ih =>
    cases hs : S.step s a with
    | none => simp [System.run, hs]
    | some t => simp [System.run, hs, ih]

theorem Reachable.run {s s' : σ} {as : List α} (h : S.Reachable s) (hr : S.run s as = some s') :
    S.Reachable s' := by
  induction as generalizing s with
  | nil => exact Option.some.inj hr ▸ h
  | cons a as ih =>
    obtain ⟨t, ht, hr⟩ := Option.bind_eq_some_iff.mp hr
    exact ih (h.step ht) hr

theorem Reachable.of_run {s s' : σ} (as : List α) (h : S.init s) (hr : S.run s as = some s') :
    S.Reachable s' :=
  (Reachable.init h).run hr

/-- What is kept by every step holds at the end of a run. -/
theorem run_keeps {I : σ → Prop} (hstep : ∀ s a s', I s → S.step s a = some s' → I s') {s s' : σ}
    {as : List α} (h : I s) (hr : S.run s as = some s') : I s' := by
  induction as generalizing s with
  | nil => exact Option.some.inj hr ▸ h
  | cons a as ih =>
    obtain ⟨t, ht, hr⟩ := Option.bind_eq_some_iff.mp hr
    exact ih (hstep _ _ _ h ht) hr

/-- What holds at the beginning of a run and not at its end was ended by a step. -/
theorem exists_step_ending {P : σ → Prop} {s s' : σ} {as : List α} (hr : S.run s as = some s')
    (h : P s) (h' : ¬ P s') : ∃ bs a cs t t', as = bs ++ a :: cs ∧ S.run s bs = some t ∧
      S.step t a = some t' ∧ S.run t' cs = some s' ∧ P t ∧ ¬ P t' := by
  induction as generalizing s with
  | nil => exact absurd (Option.some.inj hr ▸ h) h'
  | cons a as ih =>
    obtain ⟨u, hu, hr⟩ := Option.bind_eq_some_iff.mp hr
    by_cases hP : P u
    · obtain ⟨bs, b, cs, t, t', rfl, hbs, hrest⟩ := ih hr hP
      refine ⟨a :: bs, b, cs, t, t', rfl, ?_, hrest⟩
      rw [System.run, hu]
      exact hbs
    · exact ⟨[], a, as, s, u, rfl, rfl, hu, hr, h, hP⟩

/-- A part of the state that every step leaves alone or takes through a step of its own system runs
through that system. -/
theorem Reachable.map {τ β : Type*} {T : System τ β} (f : σ → τ)
    (hinit : ∀ s, S.init s → T.init (f s))
    (hstep : ∀ s a s', S.step s a = some s' → f s' = f s ∨ ∃ b, T.step (f s) b = some (f s'))
    {s : σ} (h : S.Reachable s) : T.Reachable (f s) := by
  induction h with
  | init h => exact .init (hinit _ h)
  | step _ hs ih =>
    rcases hstep _ _ _ hs with heq | ⟨b, hb⟩
    · exact heq ▸ ih
    · exact ih.step hb

section Restrict

variable {G : σ → α → Prop} [∀ s a, Decidable (G s a)]

theorem restrict_step_iff {s s' : σ} {a : α} :
    (S.restrict G).step s a = some s' ↔ G s a ∧ S.step s a = some s' :=
  Option.ite_none_right_eq_some

theorem run_of_restrict {s s' : σ} {as : List α} (h : (S.restrict G).run s as = some s') :
    S.run s as = some s' := by
  induction as generalizing s with
  | nil => exact h
  | cons a as ih =>
    obtain ⟨t, ht, hr⟩ := Option.bind_eq_some_iff.mp h
    exact Option.bind_eq_some_iff.mpr ⟨t, (restrict_step_iff.mp ht).2, ih hr⟩

/-- A run under a condition passes through the states of the run. -/
theorem run_restrict_prefix {s s' t : σ} {as as' : List α} (h : (S.restrict G).run s as = some s')
    (hpre : as' <+: as) (ht : S.run s as' = some t) : (S.restrict G).run s as' = some t := by
  obtain ⟨bs, rfl⟩ := hpre
  rw [run_append] at h
  obtain ⟨t', ht', -⟩ := Option.bind_eq_some_iff.mp h
  rw [ht', ← run_of_restrict ht', ht]

theorem Reachable.of_restrict {s : σ} (h : (S.restrict G).Reachable s) : S.Reachable s := by
  induction h with
  | init h => exact .init h
  | step _ hs ih => exact ih.step (restrict_step_iff.mp hs).2

/-- A run under a condition is one under a weaker condition. -/
theorem Reachable.restrict_mono {H : σ → α → Prop} [∀ s a, Decidable (H s a)]
    (hGH : ∀ s a, G s a → H s a) {s : σ} (h : (S.restrict G).Reachable s) :
    (S.restrict H).Reachable s := by
  induction h with
  | init h => exact .init h
  | step _ hs ih =>
    obtain ⟨hG, hs⟩ := restrict_step_iff.mp hs
    exact ih.step (restrict_step_iff.mpr ⟨hGH _ _ hG, hs⟩)

/-- An invariant of the steps that meet the condition. -/
theorem Reachable.restrict_invariant {I : σ → Prop} (hinit : ∀ s, S.init s → I s)
    (hstep : ∀ s a s', S.Reachable s → I s → G s a → S.step s a = some s' → I s') {s : σ}
    (h : (S.restrict G).Reachable s) : I s :=
  Reachable.invariant (S := S.restrict G) hinit (fun s a s' hs hi hst =>
    hstep s a s' hs.of_restrict hi (restrict_step_iff.mp hst).1 (restrict_step_iff.mp hst).2) h

end Restrict

/-! ### Counting steps -/

section Count

variable (S)

/-- The number of steps in the run of `as` from `s` that `p` says of their pre-state and
post-state. -/
def count (p : σ → σ → Bool) (s : σ) : List α → ℕ
  | [] => 0
  | a :: as => (S.step s a).elim 0 fun s' => (p s s').toNat + count p s' as

variable {S} {p : σ → σ → Bool}

/-- A quantity that every step raises by one or leaves alone, as `p` says, counts the steps. -/
theorem count_eq {f : σ → ℕ}
    (hstep : ∀ s a s', S.Reachable s → S.step s a = some s' → f s' = f s + (p s s').toNat)
    {s s' : σ} {as : List α} (h : S.Reachable s) (hr : S.run s as = some s') :
    f s' = f s + S.count p s as := by
  induction as generalizing s with
  | nil =>
    obtain rfl := Option.some.inj hr
    rfl
  | cons a as ih =>
    obtain ⟨t, ht, hr⟩ := Option.bind_eq_some_iff.mp hr
    rw [ih (h.step ht) hr, hstep s a t h ht, count, ht]
    exact Nat.add_assoc _ _ _

/-- The steps that make a lasting property true: at most one. -/
theorem count_rises {q : σ → Bool}
    (hstep : ∀ s a s', S.Reachable s → S.step s a = some s' → q s = true → q s' = true)
    {s s' : σ} {as : List α} (h : S.Reachable s) (hq : q s = false)
    (hr : S.run s as = some s') :
    S.count (fun s s' => !q s && q s') s as = (q s').toNat := by
  have heq := count_eq (p := fun s s' => !q s && q s') (f := fun s => (q s).toNat) (S := S)
    (fun t a t' ht hs => ?_) h hr
  · simpa [hq] using heq.symm
  · have hkeep := hstep t a t' ht hs
    cases hqt : q t with
    | false => simp
    | true => simp [hkeep hqt]

end Count

end System

/-! ## Histories

A state that keeps what has happened in a list adds to its end. -/

section Histories

variable {α : Type u} {l : List α} {a b : α}

/-- What has happened before what, after more events. -/
theorem pair_sublist_append {l' : List α} : [a, b].Sublist (l ++ l') ↔
    [a, b].Sublist l ∨ a ∈ l ∧ b ∈ l' ∨ [a, b].Sublist l' := by
  rw [List.sublist_append_iff]
  constructor
  · rintro ⟨l₁, l₂, heq, h₁, h₂⟩
    -- the two events are cut before, between or behind them
    match l₁, heq with
    | [], heq => exact .inr (.inr (heq ▸ h₂))
    | [x], heq =>
      obtain ⟨rfl, rfl⟩ := List.cons.inj heq
      exact .inr (.inl ⟨List.singleton_sublist.mp h₁, List.singleton_sublist.mp h₂⟩)
    | x :: y :: l₃, heq =>
      obtain ⟨rfl, htail⟩ := List.cons.inj heq
      obtain ⟨rfl, hnil⟩ := List.cons.inj htail
      obtain ⟨rfl, rfl⟩ := List.append_eq_nil_iff.mp hnil.symm
      exact .inl h₁
  · rintro (h | ⟨ha, hb⟩ | h)
    · exact ⟨[a, b], [], rfl, h, List.nil_sublist _⟩
    · exact ⟨[a], [b], rfl, List.singleton_sublist.mpr ha, List.singleton_sublist.mpr hb⟩
    · exact ⟨[], [a, b], rfl, List.nil_sublist _, h⟩

/-- Of two things that have happened, one has happened before the other. -/
theorem pair_sublist_total (ha : a ∈ l) (hb : b ∈ l) (hab : a ≠ b) :
    [a, b].Sublist l ∨ [b, a].Sublist l := by
  induction l with
  | nil => cases ha
  | cons x l ih =>
    rcases List.mem_cons.mp ha with rfl | ha'
    · have hb' := List.mem_of_ne_of_mem hab.symm hb
      exact .inl ((List.singleton_sublist.mpr hb').cons_cons a)
    · rcases List.mem_cons.mp hb with rfl | hb'
      · exact .inr ((List.singleton_sublist.mpr ha').cons_cons b)
      · exact (ih ha' hb').imp (.cons x) (.cons x)

end Histories

/-! ## Lists of processes

A state that keeps its processes in a list replaces one of them when it moves. -/

section Processes

variable {α : Type u} {l : List α} {i : ℕ} {a b : α}

/-- A property of all processes holds after a move if it holds of the process that moved. -/
theorem forall_mem_set {P : α → Prop} (h : ∀ x ∈ l, P x) (hb : P b) : ∀ x ∈ l.set i b, P x := by
  intro x hx
  rcases List.mem_or_eq_of_mem_set hx with hx | rfl
  · exact h x hx
  · exact hb

/-- A property of all processes holds after one more has started if it holds of that one. -/
theorem forall_mem_snoc {P : α → Prop} (h : ∀ x ∈ l, P x) (hb : P b) : ∀ x ∈ l ++ [b], P x := by
  intro x hx
  rcases List.mem_append.mp hx with hx | hx
  · exact h x hx
  · rw [List.mem_singleton.mp hx]
    exact hb

/-- Some process meets `P` after a move: the one that moved, or one that did before. -/
theorem of_exists_mem_set {P : α → Prop} (h : ∃ x ∈ l.set i b, P x) : P b ∨ ∃ x ∈ l, P x := by
  obtain ⟨x, hx, hp⟩ := h
  rcases List.mem_or_eq_of_mem_set hx with hx | rfl
  · exact .inr ⟨x, hx, hp⟩
  · exact .inl hp

/-- Some process met `P` before a move: the one that moved, or one that still does. -/
theorem exists_mem_set {P : α → Prop} (ha : l[i]? = some a) (h : ∃ x ∈ l, P x) :
    P a ∨ ∃ x ∈ l.set i b, P x := by
  obtain ⟨x, hx, hp⟩ := h
  obtain ⟨j, hj⟩ := List.getElem?_of_mem hx
  by_cases hij : i = j
  · subst hij
    obtain rfl := Option.some.inj (ha.symm.trans hj)
    exact .inl hp
  · exact .inr ⟨x, List.mem_of_getElem? ((List.getElem?_set_ne hij).trans hj), hp⟩

/-- A move that makes no difference to `P`. -/
theorem exists_mem_set_iff {P : α → Prop} (ha : l[i]? = some a) (hab : P b ↔ P a) :
    (∃ x ∈ l.set i b, P x) ↔ ∃ x ∈ l, P x := by
  obtain ⟨hlt, -⟩ := List.getElem?_eq_some_iff.mp ha
  constructor
  · intro h
    rcases of_exists_mem_set h with hb | h
    · exact ⟨a, List.mem_of_getElem? ha, hab.mp hb⟩
    · exact h
  · intro h
    rcases exists_mem_set ha h with h | h
    · exact ⟨b, List.mem_set hlt b, hab.mpr h⟩
    · exact h

theorem getElem?_set_of_eq_some (h : l[i]? = some a) : (l.set i b)[i]? = some b :=
  List.getElem?_set_self (List.getElem?_eq_some_iff.mp h).1

theorem getElem?_append_of_eq_some {l' : List α} (h : l[i]? = some a) :
    (l ++ l')[i]? = some a :=
  (List.getElem?_append_left (List.getElem?_eq_some_iff.mp h).1).trans h

/-- A process after a move is the one that moved or one from before. -/
theorem getElem?_set_eq_some {j : ℕ} {x : α} (h : (l.set i b)[j]? = some x) :
    j = i ∧ x = b ∨ j ≠ i ∧ l[j]? = some x := by
  rw [List.getElem?_set] at h
  split at h
  next hij =>
    subst hij
    split at h
    · exact .inl ⟨rfl, (Option.some.inj h).symm⟩
    · cases h
  next hij => exact .inr ⟨fun hji => hij hji.symm, h⟩

/-- A process after one more has started is that one or one from before. -/
theorem getElem?_snoc_eq_some {j : ℕ} {x : α} (h : (l ++ [b])[j]? = some x) :
    l[j]? = some x ∨ j = l.length ∧ x = b := by
  rw [List.getElem?_append] at h
  split at h
  · exact .inl h
  · rw [List.getElem?_singleton] at h
    obtain ⟨hj, h⟩ := Option.ite_none_right_eq_some.mp h
    exact .inr ⟨by omega, (Option.some.inj h).symm⟩

/-- A process that had a property is still there and has it, if the one that moved keeps it. -/
theorem exists_getElem?_set {P : α → Prop} (ha : l[i]? = some a) {j : ℕ}
    (h : ∃ x, l[j]? = some x ∧ P x) (hab : j = i → P a → P b) :
    ∃ x, (l.set i b)[j]? = some x ∧ P x := by
  obtain ⟨x, hx, hp⟩ := h
  by_cases hij : j = i
  · subst hij
    obtain rfl := Option.some.inj (hx.symm.trans ha)
    exact ⟨b, getElem?_set_of_eq_some hx, hab rfl hp⟩
  · exact ⟨x, by rw [List.getElem?_set_ne fun hji => hij hji.symm]; exact hx, hp⟩

/-- The processes after a step: those that were there, with one more of `new`, or with one that has
moved as `R` says. -/
inductive Moved (new : α → Prop) (R : α → α → Prop) (l : List α) : List α → Prop
  | same : Moved new R l l
  | start {x : α} (h : new x) : Moved new R l (l ++ [x])
  | move {j : ℕ} {x y : α} (hx : l[j]? = some x) (h : R x y) : Moved new R l (l.set j y)

namespace Moved

variable {new : α → Prop} {R S : α → α → Prop} {l' : List α} {x : α}

theorem mono (h : Moved new R l l') (hRS : ∀ a b, R a b → S a b) : Moved new S l l' := by
  cases h with
  | same => exact .same
  | start h => exact .start h
  | move hx h => exact .move hx (hRS _ _ h)

/-- A process is still there, and may have moved. -/
theorem exists_getElem? (h : Moved new R l l') (hR : ∀ a, R a a) (hx : l[i]? = some x) :
    ∃ x', l'[i]? = some x' ∧ R x x' := by
  cases h with
  | same => exact ⟨x, hx, hR x⟩
  | start h =>
    exact ⟨x, getElem?_append_of_eq_some hx, hR x⟩
  | move ha h =>
    refine exists_getElem?_set ha ⟨x, hx, hR x⟩ fun hi _ => ?_
    subst hi
    obtain rfl := Option.some.inj (hx.symm.trans ha)
    exact h

/-- A process was there before, or is the one that has started. -/
theorem of_getElem? (h : Moved new R l l') (hR : ∀ a, R a a) (hx : l'[i]? = some x) :
    (∃ y, l[i]? = some y ∧ R y x) ∨ i = l.length ∧ new x := by
  cases h with
  | same => exact .inl ⟨x, hx, hR x⟩
  | start h =>
    rcases getElem?_snoc_eq_some hx with hx | ⟨hi, rfl⟩
    · exact .inl ⟨x, hx, hR x⟩
    · exact .inr ⟨hi, h⟩
  | move ha h =>
    rcases getElem?_set_eq_some hx with ⟨rfl, rfl⟩ | ⟨-, hx⟩
    · exact .inl ⟨_, ha, h⟩
    · exact .inl ⟨x, hx, hR x⟩

end Moved

/-- Distinct places of processes that are counted are no more than the count. -/
theorem length_le_countP {p : α → Bool} {js : List ℕ} (hnd : js.Nodup)
    (h : ∀ j ∈ js, ∃ x, l[j]? = some x ∧ p x = true) : js.length ≤ l.countP p := by
  have hsub : js ⊆ l.findIdxs p := by
    intro j hj
    obtain ⟨x, hx, hp⟩ := h j hj
    obtain ⟨hlt, rfl⟩ := List.getElem?_eq_some_iff.mp hx
    exact List.mem_findIdxs_iff_exists_getElem_pos.mpr ⟨hlt, hp⟩
  have hle := (List.subperm_of_subset hnd hsub).length_le
  rwa [List.length_findIdxs] at hle

/-- A move changes a count of processes by the process that moved. -/
theorem countP_set (p : α → Bool) (ha : l[i]? = some a) :
    (l.set i b).countP p + (p a).toNat = l.countP p + (p b).toNat := by
  induction l generalizing i with
  | nil => simp at ha
  | cons x l ih =>
    cases i with
    | zero =>
      obtain rfl : x = a := by simpa using ha
      cases hx : p x <;> cases hb : p b <;> simp [hx, hb]
    | succ i =>
      have := ih (i := i) (by simpa using ha)
      simp only [List.set_cons_succ, List.countP_cons]
      omega

end Processes

end Transition
