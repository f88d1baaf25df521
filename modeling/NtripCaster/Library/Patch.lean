import Mathlib.Data.Fintype.Basic
import NtripCaster.Library.Transition

/-!
# Concurrent partial updates

Requests that give new values for some fields of a stored object. Each reads the object once,
chooses statements by what it gives and what it has read, and runs them one after the other; a
statement writes some fields, each with the given value or, where none is given, with the one that
was read. Other requests come between, so the value that was read may be out of date.

## Main definitions

* `Resource`: the object, its fields, the requests and their statements
* `Resource.system`: requests in any interleaving
* `Resource.Current`: the condition on a step
* `Resource.NoLostUpdate`, `Resource.LosesNothing`: the last write of a field that was given counts
* `Resource.Logged`, `Resource.Accounted`: what the log says of the requests and of the store

## Main results

* `Resource.current_iff`: a step that does not meet the condition reverts a field
* `Resource.losesNothingIff`: nothing is lost in the runs whose steps meet the condition
-/

namespace Patching

open Transition

variable {σ ρ α τ F : Type} {V : F → Type}

/-- An object in a store `σ` that is read as a `ρ` with fields `F`, requests `α` that give some of
the fields, and the statements `τ` that a request makes of what it has read. -/
structure Resource (σ ρ α τ F : Type) (V : F → Type) where
  read : σ → ρ
  field : ρ → ∀ f, V f
  given : α → ∀ f, Option (V f)
  statements : α → ρ → List τ
  exec : τ → σ → σ
  writes : τ → F → Bool
  /-- What a statement writes is given, or was read. -/
  field_exec : ∀ body snapshot, ∀ t ∈ statements body snapshot, ∀ s f,
    field (read (exec t s)) f =
      if writes t f then (given body f).getD (field snapshot f) else field (read s) f
  /-- What is given is written. -/
  writes_given : ∀ body snapshot f, (given body f).isSome = true →
    ∃ t ∈ statements body snapshot, writes t f = true

/-- Where a request stands: before it reads, or with the statements it has still to run. -/
inductive PC (ρ τ : Type)
  | read
  | write (snapshot : ρ) (todo : List τ)

/-- A request under way. -/
structure Request (ρ α τ : Type) where
  body : α
  pc : PC ρ τ

/-- The request is through with its statements. -/
def Request.isDone (r : Request ρ α τ) : Bool :=
  match r.pc with
  | .write _ [] => true
  | _ => false

/-- A statement that was run: by which request, and what it wrote of the fields given there. -/
structure Written (V : F → Type) where
  request : ℕ
  given : ∀ f, Option (V f)

/-- The store, the requests, and the statements so far, the last one first. -/
structure State (σ ρ α τ : Type) (V : F → Type) where
  stored : σ
  requests : List (Request ρ α τ)
  log : List (Written V)

/-- A request starts, or makes its next step. -/
inductive Action (α : Type)
  | start (body : α)
  | advance (i : ℕ)

namespace Resource

variable (R : Resource σ ρ α τ F V)

/-- The entry of a statement in the log. -/
def entry (i : ℕ) (body : α) (t : τ) : Written V :=
  ⟨i, fun f => if R.writes t f then R.given body f else none⟩

/-- A request reads the object once, and writes by the statements that its body asks for. -/
def step (s : State σ ρ α τ V) : Action α → Option (State σ ρ α τ V)
  | .start body => some { s with requests := s.requests ++ [⟨body, .read⟩] }
  | .advance i =>
    (s.requests[i]?).bind fun r =>
      match r.pc with
      | .read =>
        let snapshot := R.read s.stored
        some { s with
          requests := s.requests.set i { r with
            pc := .write snapshot (R.statements r.body snapshot) } }
      | .write snapshot (t :: todo) =>
        some {
          stored := R.exec t s.stored
          requests := s.requests.set i { r with pc := .write snapshot todo }
          log := R.entry i r.body t :: s.log }
      | .write _ [] => none

/-- Requests in any interleaving, on the store `before`. -/
def system (before : σ) : System (State σ ρ α τ V) (Action α) where
  init s := s = ⟨before, [], []⟩
  step := R.step

/-- A field that the next statement of the request writes, and that is not given, has still the
value that was read. -/
def UpToDate (stored : σ) (body : α) : PC ρ τ → Prop
  | .write snapshot (t :: _) => ∀ f, R.writes t f = true → R.given body f = none →
      R.field (R.read stored) f = R.field snapshot f
  | _ => True

/-- The condition on a step: the request that moves is up to date. -/
def Current (s : State σ ρ α τ V) : Action α → Prop
  | .start _ => True
  | .advance i => ∀ r ∈ s.requests[i]?, R.UpToDate s.stored r.body r.pc

section Decidable

variable [Fintype F] [∀ f, DecidableEq (V f)]

instance (stored : σ) (body : α) (pc : PC ρ τ) : Decidable (R.UpToDate stored body pc) :=
  match pc with
  | .write snapshot (t :: _) => inferInstanceAs (Decidable (∀ f, R.writes t f = true →
      R.given body f = none → R.field (R.read stored) f = R.field snapshot f))
  | .write _ [] | .read => .isTrue trivial

instance (s : State σ ρ α τ V) (a : Action α) : Decidable (R.Current s a) :=
  match a with
  | .start _ => .isTrue trivial
  | .advance i =>
    inferInstanceAs (Decidable (∀ r ∈ s.requests[i]?, R.UpToDate s.stored r.body r.pc))

end Decidable

/-- Once all requests are through, a field that none of them gives is as before, and any other has
the value given by the request whose write of it came last among those that give it. -/
def NoLostUpdate (before : σ) (s : State σ ρ α τ V) : Prop :=
  (∀ r ∈ s.requests, r.isDone = true) → ∀ f,
    (∀ r ∈ s.requests, R.given r.body f = none) ∧
        R.field (R.read s.stored) f = R.field (R.read before) f ∨
      ∃ newer w older r v, s.log = newer ++ w :: older ∧ (∀ w' ∈ newer, w'.given f = none) ∧
        w.given f = some v ∧ s.requests[w.request]? = some r ∧ R.given r.body f = some v ∧
        R.field (R.read s.stored) f = v

/-- The step from `s` to `s'` changes no field that the request does not give. -/
def Keeps (r : Request ρ α τ) (s s' : State σ ρ α τ V) : Prop :=
  ∀ f, R.given r.body f = none → R.field (R.read s'.stored) f = R.field (R.read s.stored) f

/-- In every run of the system no update is lost, and every step of a request keeps what the
request does not give. -/
def LosesNothing (S : System (State σ ρ α τ V) (Action α)) (before : σ) : Prop :=
  ∀ s, S.Reachable s → R.NoLostUpdate before s ∧
    ∀ i r s', s.requests[i]? = some r → S.step s (.advance i) = some s' → R.Keeps r s s'

/-- What the log has to do with the requests. -/
structure Logged (s : State σ ρ α τ V) : Prop where
  attributed : ∀ w ∈ s.log, ∃ r, s.requests[w.request]? = some r ∧
    ∀ f v, w.given f = some v → R.given r.body f = some v
  progress : ∀ i r, s.requests[i]? = some r → ∀ snapshot todo, r.pc = .write snapshot todo →
    ∃ made, R.statements r.body snapshot = made ++ todo ∧
      ∀ t ∈ made, R.entry i r.body t ∈ s.log

/-- The log accounts for the stored fields. -/
def Accounted (before : σ) (s : State σ ρ α τ V) : Prop :=
  ∀ f, R.field (R.read s.stored) f =
    (s.log.findSome? fun w => w.given f).getD (R.field (R.read before) f)

variable {R} {before : σ} {s s' : State σ ρ α τ V} {i : ℕ} {r : Request ρ α τ}

/-! ## The log -/

/-- A request moves on, and is still the one that the log speaks of. -/
theorem attributed_set (hr : s.requests[i]? = some r) (pc : PC ρ τ)
    {w : Written V} (h : ∃ r, s.requests[w.request]? = some r ∧
      ∀ f v, w.given f = some v → R.given r.body f = some v) :
    ∃ r', (s.requests.set i { r with pc := pc })[w.request]? = some r' ∧
      ∀ f v, w.given f = some v → R.given r'.body f = some v :=
  exists_getElem?_set hr h fun _ hgiven => hgiven

/-- A step of a request logs the write it makes, under the request, and leaves the rest to do. -/
theorem Logged.step (h : R.Logged s) {a : Action α} (hstep : R.step s a = some s') :
    R.Logged s' := by
  cases a with
  | start body =>
    obtain rfl := Option.some.inj hstep
    refine ⟨fun w hw => ?_, fun i r hr snapshot todo hpc => ?_⟩
    · obtain ⟨r, hr, hgiven⟩ := h.attributed w hw
      exact ⟨r, getElem?_append_of_eq_some hr, hgiven⟩
    · rcases getElem?_snoc_eq_some hr with hr | ⟨-, rfl⟩
      · exact h.progress i r hr snapshot todo hpc
      · cases hpc
  | advance i =>
    obtain ⟨r, hr, hstep⟩ := Option.bind_eq_some_iff.mp hstep
    split at hstep
    next hpc =>
      obtain rfl := Option.some.inj hstep
      refine ⟨fun w hw => attributed_set hr _ (h.attributed w hw), ?_⟩
      intro j r' hr' snapshot todo hpc'
      rcases getElem?_set_eq_some hr' with ⟨-, rfl⟩ | ⟨-, hr'⟩
      · obtain ⟨rfl, rfl⟩ := PC.write.inj hpc'
        exact ⟨[], rfl, nofun⟩
      · exact h.progress j r' hr' snapshot todo hpc'
    next snapshot t todo hpc =>
      obtain rfl := Option.some.inj hstep
      obtain ⟨made, hmade, hlog⟩ := h.progress i r hr snapshot (t :: todo) hpc
      refine ⟨fun w hw => ?_, fun j r' hr' snapshot' todo' hpc' => ?_⟩
      · rcases List.mem_cons.mp hw with rfl | hw
        · refine attributed_set hr _ ⟨r, hr, fun f v hv => ?_⟩
          exact (Option.ite_none_right_eq_some.mp hv).2
        · exact attributed_set hr _ (h.attributed w hw)
      · rcases getElem?_set_eq_some hr' with ⟨rfl, rfl⟩ | ⟨-, hr'⟩
        · obtain ⟨rfl, rfl⟩ := PC.write.inj hpc'
          refine ⟨made ++ [t], by rw [hmade, List.append_assoc, List.singleton_append], ?_⟩
          refine forall_mem_snoc (fun t' ht' => List.mem_cons_of_mem _ (hlog t' ht')) ?_
          exact List.mem_cons_self
        · obtain ⟨made', hmade', hlog'⟩ := h.progress j r' hr' snapshot' todo' hpc'
          exact ⟨made', hmade', fun t' ht' => List.mem_cons_of_mem _ (hlog' t' ht')⟩
    next => cases hstep

theorem logged (h : (R.system before).Reachable s) : R.Logged s := by
  refine h.invariant (I := fun s => R.Logged s) ?_ fun t a t' _ ht hstep => ht.step hstep
  rintro t rfl
  exact ⟨nofun, nofun⟩

/-- The next statement is one of the request. -/
theorem Logged.mem_statements (h : R.Logged s) (hr : s.requests[i]? = some r) {snapshot : ρ}
    {t : τ} {todo : List τ} (hpc : r.pc = .write snapshot (t :: todo)) :
    t ∈ R.statements r.body snapshot := by
  obtain ⟨made, hmade, -⟩ := h.progress i r hr snapshot (t :: todo) hpc
  rw [hmade]
  exact List.mem_append_right made List.mem_cons_self

/-! ## The store -/

/-- What a statement writes is given, or up to date. -/
theorem stored_exec {body : α} {snapshot : ρ} {t : τ} {todo : List τ}
    (hmem : t ∈ R.statements body snapshot)
    (hcur : R.UpToDate s.stored body (.write snapshot (t :: todo))) (i : ℕ) (f : F) :
    R.field (R.read (R.exec t s.stored)) f =
      ((R.entry i body t).given f).getD (R.field (R.read s.stored) f) := by
  rw [R.field_exec body snapshot t hmem, entry]
  dsimp only
  split
  next hw =>
    cases hg : R.given body f with
    | none => exact (hcur f hw hg).symm
    | some v => rfl
  next => rfl

/-- The condition on a step is met exactly where the request leaves the fields alone that it does
not give. -/
theorem current_iff (h : (R.system before).Reachable s) (hr : s.requests[i]? = some r)
    (hstep : R.step s (.advance i) = some s') : R.Current s (.advance i) ↔ R.Keeps r s s' := by
  have hcur : R.Current s (.advance i) ↔ R.UpToDate s.stored r.body r.pc := by
    simp only [Current, hr, Option.mem_some_iff, forall_eq']
  rw [hcur]
  obtain ⟨r', hr', hstep⟩ := Option.bind_eq_some_iff.mp hstep
  obtain rfl := Option.some.inj (hr.symm.trans hr')
  split at hstep
  next hpc =>
    obtain rfl := Option.some.inj hstep
    rw [hpc]
    exact iff_of_true trivial fun f _ => rfl
  next snapshot t todo hpc =>
    obtain rfl := Option.some.inj hstep
    have hexec := R.field_exec r.body snapshot t ((logged h).mem_statements hr hpc) s.stored
    rw [hpc]
    constructor
    · intro hcur f hf
      rw [hexec f]
      split
      next hw => rw [hf, hcur f hw hf, Option.getD_none]
      next => rfl
    · intro hkeeps f hw hf
      have hstored := hkeeps f hf
      rw [hexec f, if_pos hw, hf] at hstored
      exact hstored.symm
  next => cases hstep

/-- Every step that meets the condition keeps the account. -/
theorem Accounted.step (h : R.Accounted before s) (hlog : R.Logged s) {a : Action α}
    (hcur : R.Current s a) (hstep : R.step s a = some s') : R.Accounted before s' := by
  cases a with
  | start body => exact Option.some.inj hstep ▸ h
  | advance i =>
    obtain ⟨r, hr, hstep⟩ := Option.bind_eq_some_iff.mp hstep
    have hcur := hcur r hr
    split at hstep
    next => exact Option.some.inj hstep ▸ h
    next snapshot t todo hpc =>
      obtain rfl := Option.some.inj hstep
      rw [hpc] at hcur
      intro f
      rw [stored_exec (hlog.mem_statements hr hpc) hcur i f, h f, List.findSome?_cons]
      cases (R.entry i r.body t).given f <;> rfl
    next => cases hstep

/-- The account settles every field, once all requests are through. -/
theorem Accounted.noLostUpdate (h : R.Accounted before s) (hlogged : R.Logged s) :
    R.NoLostUpdate before s := by
  intro hdone f
  cases hfind : s.log.findSome? fun w => w.given f with
  | none =>
    refine .inl ⟨fun r hr => ?_, by rw [h f, hfind]; rfl⟩
    obtain ⟨i, hi⟩ := List.mem_iff_getElem?.mp hr
    obtain ⟨body, pc⟩ := r
    have hpc := hdone _ hr
    unfold Request.isDone at hpc
    split at hpc
    next snapshot hpc' =>
      -- a field that is given would have been written
      by_contra hgiven
      obtain ⟨t, ht, hw⟩ := R.writes_given body snapshot f (Option.isSome_iff_ne_none.mpr hgiven)
      obtain ⟨made, hmade, hlog⟩ := hlogged.progress i _ hi snapshot [] hpc'
      rw [hmade, List.append_nil] at ht
      have hnone := List.findSome?_eq_none_iff.mp hfind _ (hlog t ht)
      exact hgiven ((if_pos hw).symm.trans hnone)
    next => cases hpc
  | some v =>
    obtain ⟨newer, w, older, hlog, hw, hnewer⟩ := List.findSome?_eq_some_iff.mp hfind
    obtain ⟨r, hr, hgiven⟩ := hlogged.attributed w (by rw [hlog]; simp)
    refine .inr ⟨newer, w, older, r, v, hlog, hnewer, hw, hr, hgiven f v hw, ?_⟩
    rw [h f, hfind]
    rfl

section Run

variable [Fintype F] [∀ f, DecidableEq (V f)]

theorem accounted (h : ((R.system before).restrict R.Current).Reachable s) :
    R.Accounted before s := by
  refine System.Reachable.restrict_invariant (I := fun s => R.Accounted before s) ?_
    (fun t a t' hreach ht hcur hstep => ht.step (logged hreach) hcur hstep) h
  rintro t rfl f
  rfl

/-- Nothing is lost in the runs whose steps meet the condition, and every other step of a request
reverts a field. -/
structure LosesNothingIff (R : Resource σ ρ α τ F V) (before : σ) : Prop where
  losesNothing : R.LosesNothing ((R.system before).restrict R.Current) before
  current_iff : ∀ s, (R.system before).Reachable s → ∀ i r s', s.requests[i]? = some r →
    R.step s (.advance i) = some s' → (R.Current s (.advance i) ↔ R.Keeps r s s')

theorem losesNothingIff (R : Resource σ ρ α τ F V) (before : σ) : R.LosesNothingIff before := by
  refine ⟨fun s h => ?_, fun s h i r s' hr hstep => current_iff h hr hstep⟩
  refine ⟨(accounted h).noLostUpdate (logged h.of_restrict), fun i r s' hr hstep => ?_⟩
  obtain ⟨hcur, hstep⟩ := System.restrict_step_iff.mp hstep
  exact (current_iff h.of_restrict hr hstep).mp hcur

end Run

end Resource

end Patching
