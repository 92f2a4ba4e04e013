import Mathlib.Data.List.Basic
import Mathlib.Order.Lattice

/-!
# Lists in strictly increasing order of a key

An insertion walks to the first larger key and gives up at an equal one. In an increasing list it gives up
just when the key is there.
-/

namespace ThunderboltVerbs.Lib

variable {α κ : Type} [LinearOrder κ]

def Increasing (key : α → κ) (entries : List α) : Prop := entries.Pairwise fun a b => key a < key b

def insertNew (key : α → κ) (entry : α) : List α → Option (List α)
  | [] => some [entry]
  | head :: tail =>
      if key entry = key head then none
      else if key entry < key head then some (entry :: head :: tail)
      else (insertNew key entry tail).map (head :: ·)

variable {key : α → κ} {entry : α} {entries inserted : List α}

theorem perm_insertNew (insert : insertNew key entry entries = some inserted) :
    inserted.Perm (entry :: entries) := by
  induction entries generalizing inserted with
  | nil =>
      cases insert
      exact .refl _
  | cons head tail ih =>
      unfold insertNew at insert
      split at insert
      · cases insert
      split at insert
      · cases insert
        exact .refl _
      · obtain ⟨rest, later, rfl⟩ := Option.map_eq_some_iff.mp insert
        exact ((ih later).cons head).trans (.swap entry head tail)

theorem Increasing.insertNew (increasing : Increasing key entries)
    (insert : insertNew key entry entries = some inserted) : Increasing key inserted := by
  induction entries generalizing inserted with
  | nil =>
      cases insert
      exact List.pairwise_singleton _ _
  | cons head tail ih =>
      obtain ⟨first, rest⟩ := List.pairwise_cons.mp increasing
      unfold Lib.insertNew at insert
      split at insert
      · cases insert
      rename_i differs
      split at insert
      · rename_i before
        cases insert
        refine List.pairwise_cons.mpr ⟨?_, increasing⟩
        intro other member
        rcases List.mem_cons.mp member with rfl | later
        · exact before
        · exact before.trans (first other later)
      · rename_i notBefore
        obtain ⟨next, later, rfl⟩ := Option.map_eq_some_iff.mp insert
        refine List.pairwise_cons.mpr ⟨?_, ih rest later⟩
        intro other member
        rcases List.mem_cons.mp ((perm_insertNew later).mem_iff.mp member) with rfl | old
        · exact (not_lt.mp notBefore).lt_of_ne (Ne.symm differs)
        · exact first other old

theorem insertNew_eq_none_iff (increasing : Increasing key entries) :
    insertNew key entry entries = none ↔ ∃ other ∈ entries, key other = key entry := by
  induction entries with
  | nil => simp [insertNew]
  | cons head tail ih =>
      obtain ⟨first, rest⟩ := List.pairwise_cons.mp increasing
      unfold insertNew
      split
      · rename_i same
        exact iff_of_true rfl ⟨head, List.mem_cons_self, same.symm⟩
      rename_i differs
      split
      · -- every later key is larger than the one the walk stops at
        rename_i before
        apply iff_of_false (by simp)
        rintro ⟨other, member, same⟩
        rcases List.mem_cons.mp member with rfl | later
        · exact differs same.symm
        · exact (before.trans (first other later)).ne' same
      · rw [Option.map_eq_none_iff, ih rest]
        constructor
        · rintro ⟨other, later, same⟩
          exact ⟨other, List.mem_cons_of_mem head later, same⟩
        · rintro ⟨other, member, same⟩
          rcases List.mem_cons.mp member with rfl | later
          · exact absurd same.symm differs
          · exact ⟨other, later, same⟩

theorem Increasing.nodup (increasing : Increasing key entries) : (entries.map key).Nodup := by
  rw [List.Nodup, List.pairwise_map]
  exact increasing.imp ne_of_lt

end ThunderboltVerbs.Lib
