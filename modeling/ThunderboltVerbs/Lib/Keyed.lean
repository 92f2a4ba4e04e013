import Mathlib.Data.List.Basic
import Mathlib.Data.List.Nodup

/-!
# Lists with distinct keys
-/

namespace ThunderboltVerbs.Lib

variable {α κ : Type} [DecidableEq κ] {key : α → κ} {entries : List α} {entry other : α}

theorem key_ne_of_mem_eraseP (distinct : (entries.map key).Nodup) (member : entry ∈ entries)
    (left : other ∈ entries.eraseP fun each => key each = key entry) : key other ≠ key entry := by
  induction entries with
  | nil => cases left
  | cons head tail ih =>
      simp only [List.map_cons, List.nodup_cons] at distinct
      intro same
      by_cases here : key head = key entry
      · simp only [List.eraseP_cons, here, decide_true, cond_true] at left
        exact distinct.1 (here ▸ same ▸ List.mem_map_of_mem left)
      · simp only [List.eraseP_cons, here, decide_false, cond_false, List.mem_cons] at left
        rcases left with rfl | later
        · exact here same
        · rcases List.mem_cons.mp member with rfl | further
          · exact here rfl
          · exact ih distinct.2 further later same

theorem perm_eraseP_of_find? {which : α → Bool} (found : entries.find? which = some entry) :
    entries.Perm (entry :: entries.eraseP which) := by
  induction entries with
  | nil => cases found
  | cons head tail ih =>
      by_cases here : which head = true
      · rw [List.find?_cons_of_pos here, Option.some.injEq] at found
        rw [List.eraseP_cons_of_pos here, found]
      · rw [List.find?_cons_of_neg here] at found
        rw [List.eraseP_cons_of_neg here]
        exact ((ih found).cons head).trans (.swap entry head _)

theorem find?_key (distinct : (entries.map key).Nodup) (member : entry ∈ entries) :
    entries.find? (fun each => key each = key entry) = some entry := by
  induction entries with
  | nil => cases member
  | cons head tail ih =>
      simp only [List.map_cons, List.nodup_cons] at distinct
      rcases List.mem_cons.mp member with rfl | later
      · rw [List.find?_cons_of_pos (by simp)]
      · have differs : key head ≠ key entry := fun equal => distinct.1 (equal ▸ List.mem_map_of_mem later)
        rw [List.find?_cons_of_neg (by simpa using differs)]
        exact ih distinct.2 later

theorem perm_eraseP_key (distinct : (entries.map key).Nodup) (member : entry ∈ entries) :
    entries.Perm (entry :: entries.eraseP fun each => key each = key entry) :=
  perm_eraseP_of_find? (find?_key distinct member)

def replaceKey (key : α → κ) (entry : α) (entries : List α) : List α :=
  entries.map fun each => if key each = key entry then entry else each

theorem keys_replaceKey : (replaceKey key entry entries).map key = entries.map key := by
  simp only [replaceKey, List.map_map]
  apply List.map_congr_left
  intro each _
  by_cases same : key each = key entry <;> simp [same]

@[simp] theorem length_replaceKey : (replaceKey key entry entries).length = entries.length := by
  simp [replaceKey]

theorem replaceKey_snoc (absent : ∀ each ∈ entries, key each ≠ key entry) (same : key other = key entry) :
    replaceKey key entry (entries ++ [other]) = entries ++ [entry] := by
  have kept : entries.map (fun each => if key each = key entry then entry else each) = entries := by
    conv_rhs => rw [← List.map_id entries]
    refine List.map_congr_left fun each inside => ?_
    rw [if_neg (absent each inside), id]
  rw [replaceKey, List.map_append, kept, List.map_singleton, if_pos same]

theorem eraseP_snoc (absent : ∀ each ∈ entries, key each ≠ key entry) :
    (entries ++ [entry]).eraseP (fun each => key each = key entry) = entries := by
  rw [List.eraseP_append_right _ (by simpa using absent), List.eraseP_cons_of_pos (by simp), List.append_nil]

theorem mem_replaceKey (member : other ∈ replaceKey key entry entries) :
    other = entry ∨ (other ∈ entries ∧ key other ≠ key entry) := by
  obtain ⟨each, inside, rfl⟩ := List.mem_map.mp member
  by_cases same : key each = key entry
  · simp [same]
  · simp [same, inside]

def updateFirst (which : α → Bool) (f : α → α) : List α → List α
  | [] => []
  | head :: tail => if which head then f head :: tail else head :: updateFirst which f tail

theorem mem_updateFirst {which : α → Bool} {f : α → α} (member : other ∈ updateFirst which f entries) :
    other ∈ entries ∨ ∃ each ∈ entries, which each = true ∧ other = f each := by
  induction entries with
  | nil => cases member
  | cons head tail ih =>
      simp only [updateFirst] at member
      split at member <;> rename_i test <;> rcases List.mem_cons.mp member with rfl | later
      · exact .inr ⟨head, by simp, test, rfl⟩
      · exact .inl (by simp [later])
      · exact .inl (by simp)
      · rcases ih later with old | ⟨each, inside, rest⟩
        · exact .inl (by simp [old])
        · exact .inr ⟨each, by simp [inside], rest⟩

theorem mem_updateFirst_find? {which : α → Bool} {f : α → α} (member : other ∈ updateFirst which f entries) :
    other ∈ entries ∨ ∃ each, entries.find? which = some each ∧ other = f each := by
  induction entries with
  | nil => cases member
  | cons head tail ih =>
      by_cases test : which head = true
      · rw [updateFirst, if_pos test] at member
        rcases List.mem_cons.mp member with rfl | later
        · exact .inr ⟨head, List.find?_cons_of_pos test, rfl⟩
        · exact .inl (List.mem_cons_of_mem head later)
      · rw [updateFirst, if_neg test] at member
        rw [List.find?_cons_of_neg test]
        rcases List.mem_cons.mp member with rfl | later
        · exact .inl List.mem_cons_self
        · exact (ih later).imp (List.mem_cons_of_mem head) id

theorem updateFirst_eq_replaceKey {f : α → α} (distinct : (entries.map key).Nodup) (member : entry ∈ entries)
    (same : key (f entry) = key entry) :
    updateFirst (fun each => key each = key entry) f entries = replaceKey key (f entry) entries := by
  induction entries with
  | nil => rfl
  | cons head tail ih =>
      simp only [List.map_cons, List.nodup_cons] at distinct
      by_cases here : key head = key entry
      · have own : head = entry := by
          rcases List.mem_cons.mp member with same | later
          · exact same.symm
          · exact absurd (List.mem_map_of_mem later) (here ▸ distinct.1)
        subst own
        have rest : tail.map (fun each => if key each = key head then f head else each) = tail := by
          conv_rhs => rw [← List.map_id tail]
          refine List.map_congr_left fun each inside => ?_
          have differs : key each ≠ key head := fun equal => distinct.1 (equal ▸ List.mem_map_of_mem inside)
          rw [if_neg differs, id]
        simp [updateFirst, replaceKey, same, rest]
      · have later : entry ∈ tail := (List.mem_cons.mp member).resolve_left fun equal => here (equal ▸ rfl)
        simpa [updateFirst, replaceKey, here, same] using ih distinct.2 later

theorem replaceKey_replaceKey {entry' : α} (same : key entry' = key entry) :
    replaceKey key entry' (replaceKey key entry entries) = replaceKey key entry' entries := by
  simp only [replaceKey, List.map_map]
  refine List.map_congr_left fun each _ => ?_
  by_cases own : key each = key entry <;> simp [own, same]

theorem mem_replaceKey_self (member : other ∈ entries) (same : key entry = key other) :
    entry ∈ replaceKey key entry entries :=
  List.mem_map.mpr ⟨other, member, if_pos same.symm⟩

theorem mem_replaceKey_of_ne (member : other ∈ entries) (differs : key other ≠ key entry) :
    other ∈ replaceKey key entry entries :=
  List.mem_map.mpr ⟨other, member, if_neg differs⟩

theorem map_updateFirst {β : Type} {which : α → Bool} {f : α → α} {image : α → β}
    (same : ∀ each, image (f each) = image each) :
    (updateFirst which f entries).map image = entries.map image := by
  induction entries with
  | nil => rfl
  | cons head tail ih =>
      simp only [updateFirst]
      split
      · simp [same]
      · simp [ih]

end ThunderboltVerbs.Lib
