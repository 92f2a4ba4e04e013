import Mathlib.Algebra.Order.Ring.Nat
import Mathlib.Data.List.Perm.Basic
import Mathlib.Algebra.BigOperators.Group.List.Basic
import Mathlib.Algebra.Order.BigOperators.Group.List

/-!
# Weighted counts over lists
-/

namespace ThunderboltVerbs.Lib

variable {α : Type}

def tally (weight : α → Nat) (l : List α) : Nat := (l.map weight).sum

@[simp] theorem tally_nil (weight : α → Nat) : tally weight [] = 0 := rfl

@[simp] theorem tally_cons (weight : α → Nat) (a : α) (l : List α) :
    tally weight (a :: l) = weight a + tally weight l := by
  simp [tally]

@[simp] theorem tally_append (weight : α → Nat) (l m : List α) :
    tally weight (l ++ m) = tally weight l + tally weight m := by
  simp [tally]

theorem tally_eraseIdx (weight : α → Nat) {l : List α} {i : Nat} {a : α} (found : l[i]? = some a) :
    tally weight l = weight a + tally weight (l.eraseIdx i) := by
  obtain ⟨bound, rfl⟩ := List.getElem?_eq_some_iff.mp found
  have moved := (List.getElem_cons_eraseIdx_perm bound).map weight
  simpa [tally] using moved.sum_eq.symm

theorem tally_set (weight : α → Nat) {l : List α} {k : Nat} {a : α} (found : l[k]? = some a) (b : α) :
    tally weight (l.set k b) + weight a = tally weight l + weight b := by
  induction l generalizing k with
  | nil => cases found
  | cons head tail ih =>
      cases k with
      | zero =>
          cases found
          rw [List.set_cons_zero, tally_cons, tally_cons]
          omega
      | succ k =>
          have rest := ih found
          rw [List.set_cons_succ, tally_cons, tally_cons]
          omega

theorem tally_eq_zero {weight : α → Nat} {l : List α} (zero : ∀ a ∈ l, weight a = 0) :
    tally weight l = 0 := by
  induction l with
  | nil => rfl
  | cons a l ih =>
      have rest := ih fun b member => zero b (List.mem_cons_of_mem a member)
      simp [rest, zero a List.mem_cons_self]

theorem tally_filter_add (weight : α → Nat) (test : α → Bool) (l : List α) :
    tally weight (l.filter test) + tally weight (l.filter fun a => !test a) = tally weight l := by
  induction l with
  | nil => rfl
  | cons a l ih =>
      cases tested : test a <;> simp [tested] <;> omega

theorem tally_filter {weight : α → Nat} {keep : α → Bool} {l : List α}
    (rest : ∀ a ∈ l, keep a = false → weight a = 0) : tally weight (l.filter keep) = tally weight l := by
  have dropped : tally weight (l.filter fun a => !keep a) = 0 := tally_eq_zero fun a member => by
    obtain ⟨inside, out⟩ := List.mem_filter.mp member
    exact rest a inside (by simpa using out)
  rw [← tally_filter_add weight keep l, dropped, Nat.add_zero]

theorem tally_perm (weight : α → Nat) {l m : List α} (perm : l.Perm m) : tally weight l = tally weight m :=
  (perm.map weight).sum_eq

theorem tally_subperm (weight : α → Nat) {l m : List α} (sub : l.Subperm m) : tally weight l ≤ tally weight m := by
  obtain ⟨l', perm, sublist⟩ := sub
  rw [← tally_perm weight perm]
  exact (sublist.map weight).sum_le_sum fun _ _ => Nat.zero_le _

theorem tally_map {β : Type} (weight : β → Nat) (f : α → β) (l : List α) :
    tally weight (l.map f) = tally (fun a => weight (f a)) l := by
  simp only [tally, List.map_map]
  rfl

theorem tally_add (first second : α → Nat) (l : List α) :
    tally (fun a => first a + second a) l = tally first l + tally second l := by
  induction l with
  | nil => rfl
  | cons a l ih =>
      rw [tally_cons, tally_cons, tally_cons, ih]
      omega

theorem tally_congr {first second : α → Nat} {l : List α} (same : ∀ a ∈ l, first a = second a) :
    tally first l = tally second l := by
  rw [tally, tally, List.map_congr_left same]

theorem tally_single {κ : Type} [DecidableEq κ] {key : α → κ} {k : κ} {l : List α} (distinct : (l.map key).Nodup)
    (member : k ∈ l.map key) (weight : Nat) : tally (fun a => if key a = k then weight else 0) l = weight := by
  induction l with
  | nil => cases member
  | cons head tail ih =>
      simp only [List.map_cons, List.nodup_cons] at distinct
      rw [tally_cons]
      rcases List.mem_cons.mp member with rfl | later
      · have others : ∀ a ∈ tail, (if key a = key head then weight else 0) = 0 := fun a inside => by
          have differs : key a ≠ key head := fun equal => distinct.1 (equal ▸ List.mem_map_of_mem inside)
          rw [if_neg differs]
        rw [if_pos rfl, tally_eq_zero others, Nat.add_zero]
      · have differs : key head ≠ k := fun equal => distinct.1 (equal ▸ later)
        rw [if_neg differs, ih distinct.2 later, Nat.zero_add]

theorem tally_updateKey {κ : Type} [DecidableEq κ] {key : α → κ} {weight : α → Nat} {l : List α} {a : α}
    (distinct : (l.map key).Nodup) (member : a ∈ l) (f : α → α) :
    tally weight (l.map fun each => if key each = key a then f each else each) + weight a =
      tally weight l + weight (f a) := by
  induction l with
  | nil => cases member
  | cons head tail ih =>
      simp only [List.map_cons, List.nodup_cons] at distinct
      rw [List.map_cons, tally_cons, tally_cons]
      rcases List.mem_cons.mp member with rfl | later
      · have rest : tail.map (fun each => if key each = key a then f each else each) = tail := by
          conv_rhs => rw [← List.map_id tail]
          refine List.map_congr_left fun each inside => ?_
          have differs : key each ≠ key a := fun equal => distinct.1 (equal ▸ List.mem_map_of_mem inside)
          rw [if_neg differs, id]
        rw [rest, if_pos rfl]
        omega
      · have differs : key head ≠ key a := fun equal => distinct.1 (equal ▸ List.mem_map_of_mem later)
        rw [if_neg differs]
        have step := ih distinct.2 later
        omega

end ThunderboltVerbs.Lib
