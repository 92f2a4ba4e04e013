import Mathlib.Data.List.Nodup
import Mathlib.Data.List.Perm.Basic
import Mathlib.Logic.Function.Basic

/-!
# Writes to a memory
-/

namespace ThunderboltVerbs.Lib

variable {κ β : Type} [DecidableEq κ] {memory : κ → β} {writes writes' : List (κ × β)} {key : κ} {value : β}

/-- The memory after the writes, the oldest first. -/
def store (memory : κ → β) : List (κ × β) → κ → β
  | [] => memory
  | write :: later => store (Function.update memory write.1 write.2) later

theorem store_append (memory : κ → β) (writes later : List (κ × β)) :
    store memory (writes ++ later) = store (store memory writes) later := by
  induction writes generalizing memory with
  | nil => rfl
  | cons write rest ih => exact ih _

theorem store_of_notMem (untouched : key ∉ writes.map Prod.fst) : store memory writes key = memory key := by
  induction writes generalizing memory with
  | nil => rfl
  | cons write rest ih =>
      simp only [List.map_cons, List.mem_cons, not_or] at untouched
      rw [store, ih untouched.2, Function.update_of_ne untouched.1]

theorem store_perm (perm : writes.Perm writes') (distinct : (writes.map Prod.fst).Nodup) :
    store memory writes = store memory writes' := by
  induction perm generalizing memory with
  | nil => rfl
  | cons write _ ih =>
      simp only [List.map_cons, List.nodup_cons] at distinct
      exact ih distinct.2
  | swap first second rest =>
      simp only [List.map_cons, List.nodup_cons, List.mem_cons, not_or] at distinct
      simp only [store]
      rw [Function.update_comm distinct.1.1]
  | trans before _ ih ih' =>
      exact (ih distinct).trans (ih' ((before.map Prod.fst).nodup distinct))

/-- Of the values written to the keys one after the other, the last one for a key stays. -/
theorem store_zip {keys : List κ} {values : List β} {j : Nat} (own : keys[j]? = some key)
    (written : values[j]? = some value)
    (last : ∀ later, j < later → later < values.length → keys[later]? ≠ some key) :
    store memory (keys.zip values) key = value := by
  induction keys generalizing memory values j with
  | nil => cases own
  | cons head tail ih =>
      cases values with
      | nil => cases written
      | cons first rest =>
          rw [List.zip_cons_cons, store]
          cases j with
          | zero =>
              obtain rfl : head = key := by simpa using own
              obtain rfl : first = value := by simpa using written
              rw [store_of_notMem, Function.update_self]
              intro again
              obtain ⟨write, member, same⟩ := List.mem_map.mp again
              obtain ⟨later, bound, at_⟩ := List.getElem_of_mem member
              rw [List.length_zip] at bound
              refine last (later + 1) (by omega) (by simp only [List.length_cons]; omega) ?_
              rw [List.getElem?_cons_succ, List.getElem?_eq_getElem (by omega), ← same, ← at_, List.getElem_zip]
          | succ j =>
              refine ih (by simpa using own) (by simpa using written) fun later after bound => ?_
              simpa using last (later + 1) (by omega) (by simp only [List.length_cons]; omega)

end ThunderboltVerbs.Lib
