import Mathlib.Data.List.Basic

/-!
# Transition systems

A system is a set of initial states and a partial step function; every choice that the step leaves
open (scheduling, loss, failures) is part of the action. `ReachableVia ok` is reachability by runs
all of whose steps meet `ok`.
-/

namespace ThunderboltVerbs.Lib

structure System (σ α : Type) where
  init : σ → Prop
  step : σ → α → Option σ

namespace System

variable {σ α : Type} (sys : System σ α)

inductive ReachableVia (ok : σ → α → Prop) : σ → Prop
  | init {s : σ} (start : sys.init s) : ReachableVia ok s
  | step {s s' : σ} {a : α} (previous : ReachableVia ok s) (allowed : ok s a)
      (action : sys.step s a = some s') : ReachableVia ok s'

abbrev Reachable : σ → Prop := sys.ReachableVia fun _ _ => True

variable {sys} {ok : σ → α → Prop}

theorem ReachableVia.invariant_with {known inv : σ → Prop}
    (have_known : ∀ s, sys.ReachableVia ok s → known s) (base : ∀ s, sys.init s → inv s)
    (next : ∀ s a s', known s → inv s → ok s a → sys.step s a = some s' → inv s')
    {s : σ} (reachable : sys.ReachableVia ok s) : inv s := by
  induction reachable with
  | init start => exact base _ start
  | step previous allowed action ih =>
      exact next _ _ _ (have_known _ previous) ih allowed action

theorem ReachableVia.invariant {inv : σ → Prop} (base : ∀ s, sys.init s → inv s)
    (next : ∀ s a s', inv s → ok s a → sys.step s a = some s' → inv s')
    {s : σ} (reachable : sys.ReachableVia ok s) : inv s :=
  reachable.invariant_with (fun _ _ => trivial) base
    fun s a s' (_ : True) held allowed action => next s a s' held allowed action

theorem ReachableVia.mono {weaker : σ → α → Prop} (le : ∀ s a, ok s a → weaker s a)
    {s : σ} (reachable : sys.ReachableVia ok s) : sys.ReachableVia weaker s := by
  induction reachable with
  | init start => exact .init start
  | step previous allowed action ih => exact .step ih (le _ _ allowed) action

theorem ReachableVia.reachable {s : σ} (reachable : sys.ReachableVia ok s) : sys.Reachable s :=
  reachable.mono fun _ _ _ => trivial

/-- The run of a given list of actions, stopped at the first action that is not possible or does
not meet `ok`. -/
def runVia (sys : System σ α) (ok : σ → α → Prop) [∀ s a, Decidable (ok s a)] :
    σ → List α → Option σ
  | s, [] => some s
  | s, a :: rest =>
      if ok s a then (sys.step s a).bind fun s' => runVia sys ok s' rest else none

theorem reachableVia_of_runVia [∀ s a, Decidable (ok s a)] {s s' : σ} {actions : List α}
    (reachable : sys.ReachableVia ok s) (run : sys.runVia ok s actions = some s') :
    sys.ReachableVia ok s' := by
  induction actions generalizing s with
  | nil =>
      simp only [runVia, Option.some.injEq] at run
      exact run ▸ reachable
  | cons a rest ih =>
      simp only [runVia] at run
      split at run
      · rename_i allowed
        obtain ⟨next, action, tail⟩ := Option.bind_eq_some_iff.mp run
        exact ih (.step reachable allowed action) tail
      · cases run

/-- A run given by its actions reaches a state that passes the test. -/
theorem exists_reachableVia (sys : System σ α) (ok : σ → α → Prop) [∀ s a, Decidable (ok s a)]
    {s : σ} (actions : List α) (test : σ → Bool) (start : sys.init s)
    (check : (sys.runVia ok s actions).any test = true) :
    ∃ s', sys.ReachableVia ok s' ∧ test s' = true := by
  cases run : sys.runVia ok s actions with
  | none => simp [run] at check
  | some s' =>
      simp only [run, Option.any_some] at check
      exact ⟨s', reachableVia_of_runVia (.init start) run, check⟩

end System

end ThunderboltVerbs.Lib
