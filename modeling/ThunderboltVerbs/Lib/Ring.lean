import Mathlib.Data.List.Basic
import Mathlib.Data.Int.ModEq

/-!
# Ring buffers

The first `size` cells of a list are a ring: `Window cells size head live` says that the cells from `head`
on, round the ring, hold `live`.
-/

namespace ThunderboltVerbs.Lib

variable {α : Type} {cells : List α} {size head i j : Nat} {live : List α} {x : α}

theorem ring_lt (head_lt : head < size) (i : Nat) : (head + i) % size < size :=
  Nat.mod_lt _ (Nat.zero_lt_of_lt head_lt)

theorem ring_inj (i_lt : i < size) (j_lt : j < size) (same : (head + i) % size = (head + j) % size) : i = j :=
  (Nat.ModEq.add_left_cancel' head same).eq_of_lt_of_lt i_lt j_lt

theorem ring_next (head i : Nat) : ((head + 1) % size + i) % size = (head + (i + 1)) % size := by
  rw [Nat.mod_add_mod, Nat.add_assoc, Nat.add_comm 1]

theorem length_foldl_set {ι : Type} (steps : List ι) (place : ι → Nat) (value : List α → ι → α) :
    (steps.foldl (fun cells step => cells.set (place step) (value cells step)) cells).length = cells.length := by
  induction steps generalizing cells with
  | nil => rfl
  | cons step rest ih => rw [List.foldl_cons, ih, List.length_set]

structure Window (cells : List α) (size head : Nat) (live : List α) : Prop where
  size_le : size ≤ cells.length
  head_lt : head < size
  fits : live.length ≤ size
  cell : ∀ i, i < live.length → cells[(head + i) % size]? = live[i]?

namespace Window

theorem empty (size_le : size ≤ cells.length) (head_lt : head < size) : Window cells size head [] where
  size_le := size_le
  head_lt := head_lt
  fits := Nat.zero_le _
  cell _ bound := absurd bound (Nat.not_lt_zero _)

variable (window : Window cells size head live)
include window

theorem index_lt (i : Nat) : (head + i) % size < cells.length :=
  (ring_lt window.head_lt i).trans_le window.size_le

theorem getD (fallback : α) (bound : i < live.length) : cells.getD ((head + i) % size) fallback = live[i] := by
  rw [List.getD_eq_getElem?_getD, window.cell i bound, List.getElem?_eq_getElem bound]
  rfl

theorem read (fallback : α) :
    (List.range live.length).map (fun i => cells.getD ((head + i) % size) fallback) = live := by
  refine List.ext_getElem (by simp) fun i bound _ => ?_
  rw [List.length_map, List.length_range] at bound
  rw [List.getElem_map, List.getElem_range, window.getD fallback bound]

theorem set (bound : i < live.length) (x : α) :
    Window (cells.set ((head + i) % size) x) size head (live.set i x) where
  size_le := window.size_le.trans_eq (List.length_set ..).symm
  head_lt := window.head_lt
  fits := (List.length_set ..).trans_le window.fits
  cell j inside := by
    rw [List.length_set] at inside
    by_cases same : j = i
    · subst same
      rw [List.getElem?_set_self (window.index_lt j), List.getElem?_set_self inside]
    · have apart : (head + i) % size ≠ (head + j) % size := fun equal =>
        same (ring_inj (bound.trans_le window.fits) (inside.trans_le window.fits) equal).symm
      rw [List.getElem?_set_ne apart, List.getElem?_set_ne (Ne.symm same), window.cell j inside]

theorem free {k : Nat} (outside : ∀ i, i < live.length → (head + i) % size ≠ k) (x : α) :
    Window (cells.set k x) size head live where
  size_le := window.size_le.trans_eq (List.length_set ..).symm
  head_lt := window.head_lt
  fits := window.fits
  cell i bound := by rw [List.getElem?_set_ne (outside i bound).symm, window.cell i bound]

theorem push (room : live.length < size) (x : α) :
    Window (cells.set ((head + live.length) % size) x) size head (live ++ [x]) where
  size_le := window.size_le.trans_eq (List.length_set ..).symm
  head_lt := window.head_lt
  fits := by
    rw [List.length_append, List.length_singleton]
    exact room
  cell i bound := by
    rw [List.length_append, List.length_singleton, Nat.lt_succ_iff] at bound
    rcases bound.eq_or_lt with rfl | old
    · rw [List.getElem?_set_self (window.index_lt _), List.getElem?_concat_length]
    · have apart : (head + live.length) % size ≠ (head + i) % size := fun equal =>
        old.ne' (ring_inj room (old.trans room) equal)
      rw [List.getElem?_set_ne apart, window.cell i old, List.getElem?_append_left old]

theorem map_prefix {f : α → α} {count : Nat} (bound : count ≤ live.length) (fallback : α) :
    Window ((List.range count).foldl
      (fun cells i => cells.set ((head + i) % size) (f (cells.getD ((head + i) % size) fallback))) cells)
      size head ((live.take count).map f ++ live.drop count) := by
  induction count with
  | zero => simpa using window
  | succ count ih =>
      have before := ih (Nat.le_of_succ_le bound)
      have length : ((live.take count).map f).length = count := by
        rw [List.length_map, List.length_take, Nat.min_eq_left (Nat.le_of_succ_le bound)]
      have inside : count < ((live.take count).map f ++ live.drop count).length := by
        rw [List.length_append, length, List.length_drop]
        omega
      have next : ((live.take count).map f ++ live.drop count)[count] = live[count] := by
        rw [List.getElem_append_right length.le, List.getElem_drop]
        simp only [length, Nat.sub_self, Nat.add_zero]
      have written := before.set inside (f (live[count]))
      rw [List.range_succ, List.foldl_append, List.foldl_cons, List.foldl_nil, before.getD fallback inside, next]
      have split : ((live.take count).map f ++ live.drop count).set count (f live[count]) =
          (live.take (count + 1)).map f ++ live.drop (count + 1) := by
        rw [List.set_append_right _ _ length.le, length, Nat.sub_self, List.drop_eq_getElem_cons bound,
          List.set_cons_zero, List.take_succ_eq_append_getElem bound, List.map_append, List.append_assoc]
        rfl
      rwa [split] at written

theorem map (f : α → α) (fallback : α) :
    Window ((List.range live.length).foldl
      (fun cells i => cells.set ((head + i) % size) (f (cells.getD ((head + i) % size) fallback))) cells)
      size head (live.map f) := by
  simpa using map_prefix (f := f) window le_rfl fallback

end Window

theorem Window.first (window : Window cells size head (x :: live)) : cells[head]? = some x := by
  have cell := window.cell 0 (Nat.succ_pos _)
  rwa [Nat.add_zero, Nat.mod_eq_of_lt window.head_lt, List.getElem?_cons_zero] at cell

theorem Window.pop (window : Window cells size head (x :: live)) : Window cells size ((head + 1) % size) live where
  size_le := window.size_le
  head_lt := ring_lt window.head_lt 1
  fits := (Nat.le_succ _).trans window.fits
  cell i bound := by
    rw [ring_next, window.cell (i + 1) (Nat.succ_lt_succ bound), List.getElem?_cons_succ]

theorem Window.pop_clear (window : Window cells size head (x :: live)) (cleared : α) :
    Window (cells.set head cleared) size ((head + 1) % size) live := by
  refine window.pop.free (fun i bound same => ?_) cleared
  have own : (head + (i + 1)) % size = (head + 0) % size := by
    rw [← ring_next, same, Nat.add_zero, Nat.mod_eq_of_lt window.head_lt]
  have fits := window.fits
  rw [List.length_cons] at fits
  exact Nat.succ_ne_zero i (ring_inj (by omega) (Nat.zero_lt_of_lt window.head_lt) own)

/-! ## Rings with empty cells -/

/-- The cells of the ring that are not in the window are empty. -/
structure Occupied (vacant : α → Prop) (cells : List α) (size head : Nat) (live : List α) : Prop extends
    Window cells size head live where
  rest : ∀ k x, k < size → (∀ i, i < live.length → (head + i) % size ≠ k) → cells[k]? = some x → vacant x

namespace Occupied

variable {vacant : α → Prop}

theorem set (occupied : Occupied vacant cells size head live) (bound : i < live.length) (x : α) :
    Occupied vacant (cells.set ((head + i) % size) x) size head (live.set i x) where
  toWindow := occupied.toWindow.set bound x
  rest k y inside free found := by
    rw [List.length_set] at free
    rw [List.getElem?_set_ne (free i bound)] at found
    exact occupied.rest k y inside free found

theorem push (occupied : Occupied vacant cells size head live) (room : live.length < size) (x : α) :
    Occupied vacant (cells.set ((head + live.length) % size) x) size head (live ++ [x]) where
  toWindow := occupied.toWindow.push room x
  rest k y inside free found := by
    rw [List.length_append, List.length_singleton] at free
    rw [List.getElem?_set_ne (free live.length (Nat.lt_succ_self _))] at found
    exact occupied.rest k y inside (fun i bound => free i (Nat.lt_succ_of_lt bound)) found

theorem pop {cleared : α} (occupied : Occupied vacant cells size head (x :: live)) (empty : vacant cleared) :
    Occupied vacant (cells.set head cleared) size ((head + 1) % size) live where
  toWindow := occupied.toWindow.pop_clear cleared
  rest k y inside free found := by
    by_cases same : head = k
    · subst same
      rw [List.getElem?_set_self (inside.trans_le occupied.size_le)] at found
      cases found
      exact empty
    · rw [List.getElem?_set_ne same] at found
      refine occupied.rest k y inside (fun i bound => ?_) found
      cases i with
      | zero => rwa [Nat.add_zero, Nat.mod_eq_of_lt occupied.head_lt]
      | succ i =>
          rw [← ring_next]
          exact free i (Nat.lt_of_succ_lt_succ bound)

theorem cell_cases (occupied : Occupied vacant cells size head live) {k : Nat} (inside : k < size)
    (found : cells[k]? = some x) :
    (∃ i, i < live.length ∧ k = (head + i) % size ∧ live[i]? = some x) ∨ vacant x := by
  by_cases used : ∃ i, i < live.length ∧ (head + i) % size = k
  · obtain ⟨i, bound, rfl⟩ := used
    exact .inl ⟨i, bound, rfl, (occupied.cell i bound).symm.trans found⟩
  · exact .inr (occupied.rest k x inside (fun i bound same => used ⟨i, bound, same⟩) found)

end Occupied

end ThunderboltVerbs.Lib
