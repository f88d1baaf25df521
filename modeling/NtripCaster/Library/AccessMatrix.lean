import Mathlib.Data.Set.Insert
import Mathlib.Data.Set.Prod
import Mathlib.Tactic.Common

/-!
# Access matrices

Who may use what, where subjects and objects come and go: access is granted to a subject for an
object while both are there, and lasts until it is revoked or one of the two is removed. One that is
added again under the old name starts without access.

## Main definitions

* `AccessMatrix`: the subjects, the objects, and the access granted
* `AccessCall`: what changes it; `AccessMatrix.exec`, `AccessMatrix.run`

## Main results

* `AccessMatrix.mem_granted_exec`: what one change does to a grant
* `AccessMatrix.mem_granted_run`: access is what was granted and has not ended since
-/

namespace AccessControl

universe u v

variable {U : Type u} {M : Type v}

/-- Who may use what; only what exists is granted, and only to those who exist. -/
@[ext] structure AccessMatrix (U : Type u) (M : Type v) where
  subjects : Set U
  objects : Set M
  granted : Set (U × M)
  known : granted ⊆ subjects ×ˢ objects

/-- What may be asked of an access matrix. -/
inductive AccessCall (U : Type u) (M : Type v)
  | addSubject (u : U)
  | addObject (m : M)
  | removeSubject (u : U)
  | removeObject (m : M)
  | grant (u : U) (m : M)
  | revoke (u : U) (m : M)
  deriving DecidableEq

/-- The change ends the access `p`. -/
def AccessCall.Ends (p : U × M) : AccessCall U M → Prop
  | .removeSubject u => p.1 = u
  | .removeObject m => p.2 = m
  | .revoke u m => p = (u, m)
  | _ => False

namespace AccessMatrix

variable (a : AccessMatrix U M)

theorem known_addSubject (u : U) : a.granted ⊆ insert u a.subjects ×ˢ a.objects :=
  fun _ hp => ⟨.inr (a.known hp).1, (a.known hp).2⟩

theorem known_addObject (m : M) : a.granted ⊆ a.subjects ×ˢ insert m a.objects :=
  fun _ hp => ⟨(a.known hp).1, .inr (a.known hp).2⟩

theorem known_removeSubject (u : U) :
    {p | p ∈ a.granted ∧ p.1 ≠ u} ⊆ (a.subjects \ {u}) ×ˢ a.objects :=
  fun _ hp => ⟨⟨(a.known hp.1).1, hp.2⟩, (a.known hp.1).2⟩

theorem known_removeObject (m : M) :
    {p | p ∈ a.granted ∧ p.2 ≠ m} ⊆ a.subjects ×ˢ (a.objects \ {m}) :=
  fun _ hp => ⟨(a.known hp.1).1, (a.known hp.1).2, hp.2⟩

theorem known_grant (u : U) (m : M) :
    {p | p ∈ a.granted ∨ p = (u, m) ∧ p ∈ a.subjects ×ˢ a.objects} ⊆ a.subjects ×ˢ a.objects :=
  fun _ hp => hp.elim (a.known ·) And.right

theorem known_revoke (u : U) (m : M) :
    {p | p ∈ a.granted ∧ p ≠ (u, m)} ⊆ a.subjects ×ˢ a.objects :=
  fun _ hp => a.known hp.1

/-- A change. A grant for what is not there does nothing. -/
def exec : AccessCall U M → AccessMatrix U M
  | .addSubject u => ⟨insert u a.subjects, a.objects, a.granted, a.known_addSubject u⟩
  | .addObject m => ⟨a.subjects, insert m a.objects, a.granted, a.known_addObject m⟩
  | .removeSubject u =>
    ⟨a.subjects \ {u}, a.objects, {p | p ∈ a.granted ∧ p.1 ≠ u}, a.known_removeSubject u⟩
  | .removeObject m =>
    ⟨a.subjects, a.objects \ {m}, {p | p ∈ a.granted ∧ p.2 ≠ m}, a.known_removeObject m⟩
  | .grant u m =>
    ⟨a.subjects, a.objects,
      {p | p ∈ a.granted ∨ p = (u, m) ∧ p ∈ a.subjects ×ˢ a.objects}, a.known_grant u m⟩
  | .revoke u m =>
    ⟨a.subjects, a.objects, {p | p ∈ a.granted ∧ p ≠ (u, m)}, a.known_revoke u m⟩

/-- Changes one after the other. -/
def run (calls : List (AccessCall U M)) : AccessMatrix U M := calls.foldl exec a

variable {a} {p : U × M}

@[simp] theorem run_nil : a.run [] = a := rfl

@[simp] theorem run_cons (c : AccessCall U M) (calls : List (AccessCall U M)) :
    a.run (c :: calls) = (a.exec c).run calls := rfl

theorem run_append (calls calls' : List (AccessCall U M)) :
    a.run (calls ++ calls') = (a.run calls).run calls' :=
  List.foldl_append

theorem mem_granted_exec {c : AccessCall U M} :
    p ∈ (a.exec c).granted ↔
      p ∈ a.granted ∧ ¬ c.Ends p ∨ c = .grant p.1 p.2 ∧ p ∈ a.subjects ×ˢ a.objects := by
  cases c with
  | addSubject u | addObject m => simp [exec, AccessCall.Ends]
  | removeSubject u | removeObject m | revoke u m => simp [exec, AccessCall.Ends]
  | grant u m =>
    obtain ⟨u', m'⟩ := p
    simp [exec, AccessCall.Ends, eq_comm]

theorem exec_addSubject_of_mem {u : U} (h : u ∈ a.subjects) : a.exec (.addSubject u) = a :=
  AccessMatrix.ext (Set.insert_eq_of_mem h) rfl rfl

theorem exec_addObject_of_mem {m : M} (h : m ∈ a.objects) : a.exec (.addObject m) = a :=
  AccessMatrix.ext rfl (Set.insert_eq_of_mem h) rfl

/-- A subject is removed, if there is one. -/
theorem mem_run_removeSubject {u : Option U} :
    (∀ u', u' ∈ (a.run (u.map .removeSubject).toList).subjects ↔ u' ∈ a.subjects ∧ u ≠ some u') ∧
      (a.run (u.map .removeSubject).toList).objects = a.objects ∧
      ∀ p, p ∈ (a.run (u.map .removeSubject).toList).granted ↔ p ∈ a.granted ∧ u ≠ some p.1 := by
  cases u <;> simp [exec, eq_comm]

theorem mem_run_removeObject {m : Option M} :
    (a.run (m.map .removeObject).toList).subjects = a.subjects ∧
      (∀ m', m' ∈ (a.run (m.map .removeObject).toList).objects ↔ m' ∈ a.objects ∧ m ≠ some m') ∧
      ∀ p, p ∈ (a.run (m.map .removeObject).toList).granted ↔ p ∈ a.granted ∧ m ≠ some p.2 := by
  cases m <;> simp [exec, eq_comm]

theorem mem_run_grant {q : Option (U × M)} :
    (a.run (q.map fun q => .grant q.1 q.2).toList).subjects = a.subjects ∧
      (a.run (q.map fun q => .grant q.1 q.2).toList).objects = a.objects ∧
      ∀ p, p ∈ (a.run (q.map fun q => .grant q.1 q.2).toList).granted ↔
        p ∈ a.granted ∨ q = some p ∧ p ∈ a.subjects ×ˢ a.objects := by
  cases q <;> simp [exec, eq_comm]

theorem mem_run_revoke {q : Option (U × M)} :
    (a.run (q.map fun q => .revoke q.1 q.2).toList).subjects = a.subjects ∧
      (a.run (q.map fun q => .revoke q.1 q.2).toList).objects = a.objects ∧
      ∀ p, p ∈ (a.run (q.map fun q => .revoke q.1 q.2).toList).granted ↔
        p ∈ a.granted ∧ q ≠ some p := by
  cases q <;> simp [exec, eq_comm]

/-- **Access is what was granted, to a subject and for an object that were there, and has not ended
since.** -/
theorem mem_granted_run {calls : List (AccessCall U M)} :
    p ∈ (a.run calls).granted ↔
      (p ∈ a.granted ∧ ∀ c ∈ calls, ¬ c.Ends p) ∨
        ∃ before after, calls = before ++ .grant p.1 p.2 :: after ∧
          p ∈ (a.run before).subjects ×ˢ (a.run before).objects ∧ ∀ c ∈ after, ¬ c.Ends p := by
  induction calls generalizing a with
  | nil => simp
  | cons c calls ih =>
    rw [run_cons, ih, mem_granted_exec]
    constructor
    · rintro (⟨⟨hp, hc⟩ | ⟨rfl, hp⟩, hcalls⟩ | ⟨before, after, rfl, hp, hafter⟩)
      · exact .inl ⟨hp, List.forall_mem_cons.mpr ⟨hc, hcalls⟩⟩
      · exact .inr ⟨[], calls, rfl, hp, hcalls⟩
      · exact .inr ⟨c :: before, after, rfl, hp, hafter⟩
    · rintro (⟨hp, hcalls⟩ | ⟨before, after, hsplit, hp, hafter⟩)
      · obtain ⟨hc, hcalls⟩ := List.forall_mem_cons.mp hcalls
        exact .inl ⟨.inl ⟨hp, hc⟩, hcalls⟩
      · cases before with
        | nil =>
          obtain ⟨rfl, rfl⟩ := List.cons.inj hsplit
          exact .inl ⟨.inr ⟨rfl, hp⟩, hafter⟩
        | cons c' before =>
          obtain ⟨rfl, rfl⟩ := List.cons.inj hsplit
          exact .inr ⟨before, after, rfl, hp, hafter⟩

end AccessMatrix

end AccessControl
