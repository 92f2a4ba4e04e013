import Mathlib.Data.List.Basic

/-!
# Journals

A journal is a list of entries, the newest first. `Always P` says of every entry that `P` relates it to
the journal that was there when it was written.
-/

namespace ThunderboltVerbs.Lib

variable {α β : Type}

def Always (P : α → List α → Prop) : List α → Prop
  | [] => True
  | entry :: earlier => P entry earlier ∧ Always P earlier

variable {P Q : α → List α → Prop}

@[simp] theorem always_nil : Always P [] := trivial

@[simp] theorem always_cons {entry : α} {earlier : List α} :
    Always P (entry :: earlier) ↔ P entry earlier ∧ Always P earlier := Iff.rfl

theorem Always.at {later earlier : List α} {entry : α} (always : Always P (later ++ entry :: earlier)) :
    P entry earlier := by
  induction later with
  | nil => exact always.1
  | cons newest later ih => exact ih always.2

def nth (journal : List α) (n : Nat) : Option α := journal.reverse[n]?

@[simp] theorem nth_cons_length (entry : α) (earlier : List α) :
    nth (entry :: earlier) earlier.length = some entry := by
  simp [nth]

theorem nth_cons_lt {entry : α} {earlier : List α} {n : Nat} (bound : n < earlier.length) :
    nth (entry :: earlier) n = nth earlier n := by
  simp [nth, List.getElem?_append, bound]

theorem nth_lt {journal : List α} {n : Nat} {entry : α} (found : nth journal n = some entry) :
    n < journal.length := by
  simpa using (List.getElem?_eq_some_iff.mp found).1

theorem nth_split {journal : List α} {n : Nat} {entry : α} (found : nth journal n = some entry) :
    ∃ later, journal = later ++ entry :: journal.drop (journal.length - n) := by
  have bound := nth_lt found
  have position : journal.length - 1 - n < journal.length := by omega
  have here : journal[journal.length - 1 - n]? = some entry := by
    rw [← found, nth, List.getElem?_reverse bound]
  rw [List.getElem?_eq_getElem position, Option.some.injEq] at here
  have next : journal.length - 1 - n + 1 = journal.length - n := by omega
  have rest : journal.drop (journal.length - 1 - n) = entry :: journal.drop (journal.length - n) := by
    rw [List.drop_eq_getElem_cons position, here, next]
  refine ⟨journal.take (journal.length - 1 - n), ?_⟩
  rw [← rest, List.take_append_drop]

end ThunderboltVerbs.Lib
