import Mathlib.Algebra.Order.Group.Multiset

/-!
# Obtaining and releasing

`Holds uses held` reads a list of uses, the newest first: every release gave back something that was
obtained and not yet released, and `held` is what is left.
-/

namespace ThunderboltVerbs.Lib

inductive Use (ρ : Type)
  | obtained (resource : ρ)
  | released (resource : ρ)
  deriving DecidableEq, Repr

variable {ρ : Type}

inductive Holds : List (Use ρ) → Multiset ρ → Prop
  | nothing : Holds [] 0
  | obtain {uses : List (Use ρ)} {held : Multiset ρ} (resource : ρ) (before : Holds uses held) :
      Holds (.obtained resource :: uses) (resource ::ₘ held)
  | release {uses : List (Use ρ)} {held : Multiset ρ} (resource : ρ) (before : Holds uses (resource ::ₘ held)) :
      Holds (.released resource :: uses) held

namespace Holds

variable {uses : List (Use ρ)} {held : Multiset ρ}

theorem count_eq [DecidableEq ρ] (holds : Holds uses held) (resource : ρ) :
    uses.count (.obtained resource) = uses.count (.released resource) + held.count resource := by
  induction holds with
  | nothing => rfl
  | obtain other before ih =>
      rw [List.count_cons, List.count_cons, ih, Multiset.count_cons]
      by_cases same : other = resource
      · simp [same, Nat.add_assoc]
      · simp [same, Ne.symm same]
  | release other before ih =>
      rw [Multiset.count_cons] at ih
      rw [List.count_cons, List.count_cons, ih]
      by_cases same : other = resource
      · simp [same]
        omega
      · simp [same, Ne.symm same]

theorem released_once [DecidableEq ρ] (holds : Holds uses 0) (resource : ρ) :
    uses.count (.obtained resource) = uses.count (.released resource) := by
  simpa using holds.count_eq resource

end Holds

end ThunderboltVerbs.Lib
